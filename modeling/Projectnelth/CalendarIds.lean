import Mathlib
import Projectnelth.CalendarModel
import Projectnelth.RunInvariant

/-!
# The ids of the calendar

The ids of the events and of the invites are those that the two pools have in use. A guild
announcement gives back the id zero, which was never given out.
-/

namespace Projectnelth.CalendarModel

open CalendarMgr RunInvariant

/-- The ids of the events. -/
abbrev CalendarMgr.eventKeys (c : CalendarMgr) : List ℕ := c.events.map CalendarEvent.eventId

/-- The ids of the invites. -/
abbrev CalendarMgr.inviteKeys (c : CalendarMgr) : List ℕ :=
  c.invites.map CalendarInvite.inviteId

/-- No id was given out that is zero or in use. -/
def GivenOk (given : List Given) : Prop := ∀ x∈given, x.id≠0 ∧ x.id∉x.live

/-- The pools are sound for the events and the invites, and some event ids that are given out
but not used yet. -/
structure Sound (c : CalendarMgr) (reserved : List ℕ) : Prop where
  events : IdPool.Ok UINT64 c.eventIds (reserved++c.eventKeys)
  invites : IdPool.Ok UINT64 c.inviteIds c.inviteKeys
  stored : ∀ invite∈c.invites, invite.eventId∈reserved++c.eventKeys
  givenEvents : GivenOk c.givenEventIds
  givenInvites : GivenOk c.givenInviteIds

variable {c : CalendarMgr} {reserved : List ℕ} {event : CalendarEvent} {n : ℕ}

section Stores

theorem perm_pushInvite (c : CalendarMgr) (invite : CalendarInvite) :
    (c.pushInvite invite).invites.Perm (invite::c.invites) := by
  have hnot : (c.invites.filter fun i => invite.eventId < i.eventId)=
      c.invites.filter fun i => !decide (i.eventId ≤ invite.eventId) :=
    List.filter_congr fun i _ => by rw [Bool.eq_iff_iff]; simp
  show (_++invite::_).Perm _
  rw [hnot]
  exact List.perm_middle.trans ((List.filter_append_perm _ c.invites).cons invite)

theorem perm_addEvent (c : CalendarMgr) (before : ℕ) (event : CalendarEvent) :
    (c.addEvent before event).events.Perm (event::c.events) := by
  show (c.events.take before++event::c.events.drop before).Perm _
  refine List.perm_middle.trans ?_
  rw [List.take_append_drop]

/-- What an element that is found and taken away leaves. -/
theorem perm_eraseP {α : Type*} {p : α → Bool} {l : List α} {a : α} (h : l.find? p=some a) :
    l.Perm (a::l.eraseP p) := by
  induction l with
  | nil => cases h
  | cons b l ih =>
    by_cases hb : p b
    · rw [List.find?_cons_of_pos hb] at h
      rw [List.eraseP_cons_of_pos hb,Option.some.inj h]
    · rw [List.find?_cons_of_neg hb] at h
      rw [List.eraseP_cons_of_neg hb]
      exact ((ih h).cons b).trans (List.Perm.swap a b _)

/-- An invite that is written keeps what the change keeps. -/
theorem map_write {β : Type*} (g : CalendarInvite → β) {f : CalendarInvite → CalendarInvite}
    (hf : ∀ invite, g (f invite)=g invite) (inviteId : ℕ) (l : List CalendarInvite) :
    (modifyInvite.write inviteId f l).map g=l.map g := by
  induction l with
  | nil => rfl
  | cons invite l ih =>
    unfold modifyInvite.write
    split_ifs
    · rw [List.map_cons,List.map_cons,hf]
    · rw [List.map_cons,List.map_cons,ih]

theorem map_updateEvent (eventId flags : ℕ) (l : List CalendarEvent) :
    (handleCalendarUpdateEvent.write eventId flags l).map CalendarEvent.eventId=
      l.map CalendarEvent.eventId := by
  induction l with
  | nil => rfl
  | cons event l ih =>
    unfold handleCalendarUpdateEvent.write
    split_ifs
    · rfl
    · rw [List.map_cons,List.map_cons,ih]

end Stores

section Steps

theorem Sound.getFreeEventId (h : Sound c []) (hroom : IdPool.Room UINT64 1 c.eventIds) :
    Sound c.getFreeEventId.2 [c.getFreeEventId.1] := by
  obtain ⟨hne,hnew,hok,-⟩ := h.events.take hroom
  refine ⟨hok,h.invites,fun invite hmem => List.mem_append_right _ (h.stored invite hmem),
    fun x hx => ?_,h.givenInvites⟩
  rcases List.mem_cons.mp hx with rfl | hx
  · exact ⟨hne,hnew⟩
  · exact h.givenEvents x hx

/-- An id is given out for an invite, which comes in unless the event is an announcement. -/
theorem Sound.addInvite (h : Sound c reserved) (hroom : IdPool.Room UINT64 (n+1) c.inviteIds)
    (invite : CalendarInvite) (hid : invite.inviteId=c.getFreeInviteId.1)
    (hevent : invite.eventId∈reserved++c.eventKeys) :
    Sound (c.getFreeInviteId.2.addInvite event invite) reserved ∧
      (c.getFreeInviteId.2.addInvite event invite).eventKeys=c.eventKeys ∧
      IdPool.Room UINT64 n (c.getFreeInviteId.2.addInvite event invite).inviteIds := by
  obtain ⟨hne,hnew,hok,hroom⟩ := h.invites.take hroom
  have hgiven : GivenOk c.getFreeInviteId.2.givenInviteIds := fun x hx => by
    rcases List.mem_cons.mp hx with rfl | hx
    · exact ⟨hne,hnew⟩
    · exact h.givenInvites x hx
  unfold CalendarMgr.addInvite
  split_ifs
  · have hperm := perm_pushInvite c.getFreeInviteId.2 invite
    refine ⟨⟨h.events,?_,fun invite' hmem => ?_,h.givenEvents,hgiven⟩,rfl,hroom⟩
    · refine IdPool.Ok.perm ?_ (hperm.map CalendarInvite.inviteId).symm
      rw [List.map_cons,hid]
      exact hok
    · rcases List.mem_cons.mp (hperm.mem_iff.mp hmem) with rfl | hmem
      · exact hevent
      · exact h.stored invite' hmem
  · exact ⟨⟨h.events,hok.sublist (List.sublist_cons_self _ _),h.stored,h.givenEvents,hgiven⟩,
      rfl,hroom⟩

theorem Sound.addInvites (guid : ℕ) {invites : List (ℕ×ℕ×ℕ)} (h : Sound c reserved)
    (hroom : IdPool.Room UINT64 invites.length c.inviteIds)
    (hevent : event.eventId∈reserved++c.eventKeys) :
    Sound (c.addInvites event guid invites) reserved ∧
      (c.addInvites event guid invites).eventKeys=c.eventKeys := by
  induction invites generalizing c with
  | nil => exact ⟨h,rfl⟩
  | cons x invites ih =>
    obtain ⟨invitee,status,rank⟩ := x
    obtain ⟨hsound,hkeys,hroom⟩ := @Sound.addInvite _ _ event _ h hroom
      ⟨c.getFreeInviteId.1,event.eventId,invitee,guid,defaultResponseTime,status,rank⟩ rfl hevent
    obtain ⟨hsound,hkeys'⟩ := ih hsound hroom (hkeys.symm ▸ hevent)
    exact ⟨hsound,hkeys'.trans hkeys⟩

theorem Sound.copyInvites {invites : List CalendarInvite} (h : Sound c reserved)
    (hroom : IdPool.Room UINT64 invites.length c.inviteIds)
    (hevent : event.eventId∈reserved++c.eventKeys) :
    Sound (c.copyInvites event invites) reserved := by
  induction invites generalizing c with
  | nil => exact h
  | cons invite invites ih =>
    obtain ⟨hsound,hkeys,hroom⟩ := @Sound.addInvite _ _ event _ h hroom
      { invite with inviteId := c.getFreeInviteId.1, eventId := event.eventId } rfl hevent
    exact ih hsound hroom (hkeys.symm ▸ hevent)

/-- The event comes in under the id that was given out for it. -/
theorem Sound.addEvent (h : Sound c [event.eventId]) (before : ℕ) :
    Sound (c.addEvent before event) [] := by
  have hperm := (perm_addEvent c before event).map CalendarEvent.eventId
  exact ⟨h.events.perm hperm.symm,h.invites,
    fun invite hmem => hperm.mem_iff.mpr (h.stored invite hmem),h.givenEvents,h.givenInvites⟩

theorem Sound.freeInvites (h : Sound c reserved) (eventId : ℕ) :
    IdPool.Ok UINT64 (c.freeInvites (c.invites.filter fun invite => invite.eventId=eventId)
      ).inviteIds ((c.invites.filter fun invite => invite.eventId≠eventId).map
        CalendarInvite.inviteId) := by
  have hpool : ∀ (l : List CalendarInvite) (c : CalendarMgr), (c.freeInvites l).inviteIds=
      (l.map CalendarInvite.inviteId).foldl (fun pool id => pool.release UINT64 id)
        c.inviteIds := by
    intro l
    induction l with
    | nil => exact fun _ => rfl
    | cons invite l ih => exact fun c => ih (c.freeInviteId invite.inviteId)
  rw [hpool]
  refine IdPool.Ok.release_all (h.invites.perm ?_)
  rw [← List.map_append]
  refine List.Perm.map _ ?_
  have hnot : (c.invites.filter fun invite => invite.eventId≠eventId)=
      c.invites.filter fun invite => !decide (invite.eventId=eventId) :=
    List.filter_congr fun i _ => by rw [Bool.eq_iff_iff]; simp
  rw [hnot]
  exact (List.filter_append_perm _ c.invites).symm

/-- `freeInvites` changes the pool only. -/
theorem freeInvites_same (l : List CalendarInvite) (c : CalendarMgr) :
    ∃ pool, c.freeInvites l={ c with inviteIds := pool } := by
  induction l generalizing c with
  | nil => exact ⟨c.inviteIds,rfl⟩
  | cons invite l ih => exact ih (c.freeInviteId invite.inviteId)

/-- An event goes with its invites. -/
theorem Sound.removeEvent (h : Sound c []) (eventId : ℕ) : Sound (c.removeEvent eventId) [] := by
  unfold CalendarMgr.removeEvent
  cases hevent : c.getEvent eventId with
  | none => exact h
  | some event =>
    have hid : event.eventId=eventId := by
      have hfound := List.find?_some hevent
      exact of_decide_eq_true hfound
    have hperm := (perm_eraseP hevent).map CalendarEvent.eventId
    have hinvites := h.freeInvites eventId
    obtain ⟨pool,hpool⟩ :=
      freeInvites_same (c.invites.filter fun invite => invite.eventId=eventId) c
    rw [hpool] at hinvites
    dsimp only
    rw [hpool]
    refine ⟨(h.events.perm hperm).release,hinvites,fun invite hmem => ?_,h.givenEvents,
      h.givenInvites⟩
    obtain ⟨hmem,hne⟩ := List.mem_filter.mp hmem
    have hstored := hperm.mem_iff.mp (h.stored invite hmem)
    rcases List.mem_cons.mp hstored with he | hstored
    · exact absurd (he.trans hid) (of_decide_eq_true hne)
    · exact hstored

theorem Sound.removeInvite (h : Sound c []) (inviteId eventId : ℕ) :
    Sound (c.removeInvite inviteId eventId) [] := by
  unfold CalendarMgr.removeInvite
  cases c.getEvent eventId with
  | none => exact h
  | some event =>
    dsimp only
    cases hinvite : c.invites.find? fun i => i.eventId=eventId && i.inviteId=inviteId with
    | none => exact h
    | some invite =>
      have hperm := (perm_eraseP hinvite).map CalendarInvite.inviteId
      exact ⟨h.events,(h.invites.perm hperm).release,
        fun invite' hmem => h.stored invite' (List.mem_of_mem_eraseP hmem),h.givenEvents,
        h.givenInvites⟩

/-- An invite is written and keeps its ids. -/
theorem Sound.modifyInvite (h : Sound c []) (inviteId : ℕ) {f : CalendarInvite → CalendarInvite}
    (hf : ∀ invite, (f invite).inviteId=invite.inviteId ∧ (f invite).eventId=invite.eventId) :
    Sound (c.modifyInvite inviteId f) [] := by
  have hids := map_write CalendarInvite.inviteId (fun invite => (hf invite).1) inviteId c.invites
  have hevents := map_write CalendarInvite.eventId (fun invite => (hf invite).2) inviteId
    c.invites
  refine ⟨h.events,?_,fun invite hmem => ?_,h.givenEvents,h.givenInvites⟩
  · show IdPool.Ok UINT64 c.inviteIds ((modifyInvite.write inviteId f c.invites).map _)
    rw [hids]
    exact h.invites
  · have hmem := List.mem_map_of_mem (f := CalendarInvite.eventId) hmem
    rw [show (c.modifyInvite inviteId f).invites=modifyInvite.write inviteId f c.invites from rfl,
      hevents] at hmem
    obtain ⟨invite',hmem',he⟩ := List.mem_map.mp hmem
    exact he ▸ h.stored invite' hmem'

end Steps

section Runs

/-- How many ids of events a packet asks for. -/
def eventIdsNeeded (c : CalendarMgr) : Packet → ℕ
  | .addEvent past _ _ _ _ => if past then 0 else 1
  | .copyEvent past eventId _ => if past || (c.getEvent eventId).isNone then 0 else 1
  | _ => 0

/-- How many ids of invites a packet asks for. -/
def inviteIdsNeeded (c : CalendarMgr) (sender : Sender) : Packet → ℕ
  | .addEvent past _ invites readable _ =>
    if past || !readable then 0 else (invites.take MaxPlayerInvites).length
  | .copyEvent past eventId _ =>
    if past || (c.getEvent eventId).isNone then 0
    else (c.invites.filter fun invite => invite.eventId=eventId).length
  | .eventInvite eventId _ invitee isPreInvite _ =>
    match invitee,c.getEvent eventId with
    | some (_,inviteeGuildId),some event =>
      if isPreInvite || (event.isGuildEvent && event.guildId=inviteeGuildId) then 0 else 1
    | _,_ => 0
  | .eventSignup eventId _ _ =>
    match c.getEvent eventId with
    | some event => if event.isGuildEvent && event.guildId≠sender.guildId then 0 else 1
    | none => 0
  | _ => 0

/-- The packet makes no announcement, and asks for no more ids than there are. -/
def KeepsIds (c : CalendarMgr) (a : Sender×Packet) : Prop :=
  (match a.2 with
    | .addEvent past flags _ _ _ => past=true ∨ flags &&& CALENDAR_FLAG_WITHOUT_INVITES=0
    | _ => True) ∧
    IdPool.Room UINT64 (eventIdsNeeded c a.2) c.eventIds ∧
    IdPool.Room UINT64 (inviteIdsNeeded c a.1 a.2) c.inviteIds

instance (c : CalendarMgr) (a : Sender×Packet) : Decidable (KeepsIds c a) := by
  unfold KeepsIds
  cases a.2 <;> infer_instance

/-- The rows have ids that are not zero, and every invite has its event. -/
structure RowsOk (db : Database) : Prop where
  events : ∀ event∈db.events, event.eventId≠0
  invites : ∀ invite∈db.invites, invite.inviteId≠0
  stored : ∀ invite∈db.invites, invite.eventId∈db.events.map CalendarEvent.eventId

/-- The ids are right: those of the events and of the invites are distinct and not zero, every
invite has one event, and no id was given out that was zero or in use. -/
structure IdsRight (c : CalendarMgr) : Prop where
  events : c.eventKeys.Nodup ∧ 0∉c.eventKeys
  invites : c.inviteKeys.Nodup ∧ 0∉c.inviteKeys
  stored : ∀ invite∈c.invites, ∃! event, event∈c.events ∧ event.eventId=invite.eventId
  givenEvents : GivenOk c.givenEventIds
  givenInvites : GivenOk c.givenInviteIds

theorem Sound.idsRight (h : Sound c []) : IdsRight c := by
  refine ⟨⟨h.events.used,fun hmem => ?_⟩,⟨h.invites.used,fun hmem => ?_⟩,fun invite hmem => ?_,
    h.givenEvents,h.givenInvites⟩
  · exact absurd (h.events.bound 0 (Or.inl hmem)).1 (lt_irrefl 0)
  · exact absurd (h.invites.bound 0 (Or.inl hmem)).1 (lt_irrefl 0)
  · obtain ⟨event,hevent,hid⟩ := List.mem_map.mp (h.stored invite hmem)
    exact ⟨event,⟨hevent,hid⟩,fun event' h' =>
      List.inj_on_of_nodup_map h.events.used h'.1 hevent (h'.2.trans hid.symm)⟩

theorem sound_load {db : Database} (hdb : RowsOk db) : Sound (loadFromDB db) [] := by
  have hfold : ∀ (l : List CalendarInvite) (c : CalendarMgr),
      (l.foldl (fun c invite => pushInvite c invite) c).invites.Perm (l++c.invites) ∧
        (l.foldl (fun c invite => pushInvite c invite) c).events=c.events ∧
        (l.foldl (fun c invite => pushInvite c invite) c).givenEventIds=c.givenEventIds ∧
        (l.foldl (fun c invite => pushInvite c invite) c).givenInviteIds=c.givenInviteIds := by
    intro l
    induction l with
    | nil => exact fun c => ⟨List.Perm.refl _,rfl,rfl,rfl⟩
    | cons invite l ih =>
      intro c
      obtain ⟨hperm,hevents,hgivenE,hgivenI⟩ := ih (c.pushInvite invite)
      exact ⟨(hperm.trans ((perm_pushInvite c invite).append_left l)).trans List.perm_middle,
        hevents,hgivenE,hgivenI⟩
  obtain ⟨hperm,hevents,hgivenE,hgivenI⟩ :=
    hfold db.invites ⟨db.events,[],⟨0,[]⟩,⟨0,[]⟩,[],[]⟩
  rw [List.append_nil] at hperm
  have hkeys : (loadFromDB db).eventKeys=db.events.map CalendarEvent.eventId :=
    congrArg (List.map CalendarEvent.eventId) hevents
  refine ⟨?_,?_,fun invite hmem => ?_,?_,?_⟩
  · rw [List.nil_append,hkeys]
    exact IdPool.ok_load (by decide) db.eventKey (fun id hid => by
      obtain ⟨event,hevent,rfl⟩ := List.mem_map.mp hid
      exact Nat.pos_of_ne_zero (hdb.events event hevent)) db.eventType
  · refine IdPool.Ok.perm ?_ (hperm.map CalendarInvite.inviteId).symm
    exact IdPool.ok_load (by decide) db.inviteKey (fun id hid => by
      obtain ⟨invite,hinvite,rfl⟩ := List.mem_map.mp hid
      exact Nat.pos_of_ne_zero (hdb.invites invite hinvite)) db.inviteType
  · rw [List.nil_append,hkeys]
    exact hdb.stored invite (hperm.mem_iff.mp hmem)
  · exact hgivenE ▸ (by rintro _ ⟨⟩)
  · exact hgivenI ▸ (by rintro _ ⟨⟩)

theorem mem_keys {eventId : ℕ} (h : c.getEvent eventId=some event) :
    eventId∈[]++c.eventKeys := by
  have hfound := List.find?_some h
  have hid : event.eventId=eventId := of_decide_eq_true hfound
  exact hid ▸ List.mem_map_of_mem (List.mem_of_find?_eq_some h)

theorem Sound.handleCalendarAddEvent (h : Sound c []) (sender : Sender) (past : Bool) (flags : ℕ)
    (invites : List (ℕ×ℕ×ℕ)) (readable : Bool) (before : ℕ)
    (hkeeps : KeepsIds c (sender,.addEvent past flags invites readable before)) :
    Sound (c.handleCalendarAddEvent sender past flags invites readable before) [] := by
  obtain ⟨hflags,hevents,hinvites⟩ := hkeeps
  unfold CalendarMgr.handleCalendarAddEvent
  cases past with
  | true => exact h
  | false =>
    have hflags : flags &&& CALENDAR_FLAG_WITHOUT_INVITES=0 := hflags.resolve_left (by decide)
    have hsound := h.getFreeEventId hevents
    have hevent : ∀ guildId, (CalendarEvent.isGuildAnnouncement
        ⟨c.getFreeEventId.1,sender.guid,guildId,flags⟩)=false := fun guildId => by
      unfold CalendarEvent.isGuildAnnouncement
      rw [hflags]
      rfl
    -- Whether the guild of the sender is written does not matter.
    have hmade : ∀ event : CalendarEvent, event.eventId=c.getFreeEventId.1 →
        event.isGuildAnnouncement=false →
        Sound (if event.isGuildAnnouncement then
            ((c.getFreeEventId.2.addInvite event ⟨0,event.eventId,0,sender.guid,
              defaultResponseTime,CALENDAR_STATUS_NOT_SIGNED_UP,CALENDAR_RANK_PLAYER⟩
              ).freeInviteId 0).addEvent before event
          else if !readable then c.getFreeEventId.2.freeEventId event.eventId
          else (c.getFreeEventId.2.addInvites event sender.guid
            (invites.take MaxPlayerInvites)).addEvent before event) [] := by
      intro event hid hplain
      rw [if_neg (Bool.eq_false_iff.mp hplain)]
      cases readable with
      | false =>
        rw [if_pos (by decide)]
        exact ⟨hid ▸ hsound.events.release,h.invites,h.stored,hsound.givenEvents,h.givenInvites⟩
      | true =>
        rw [if_neg (by decide)]
        have hadded := (@Sound.addInvites _ _ event sender.guid _ hsound hinvites
          (List.mem_append_left _ (List.mem_singleton.mpr hid))).1
        rw [← hid] at hadded
        exact hadded.addEvent before
    rw [if_neg (by decide)]
    refine hmade _ ?_ ?_
    · split_ifs <;> rfl
    · split_ifs
      · exact hevent sender.guildId
      · exact hevent 0

theorem Sound.step (h : Sound c []) (a : Sender×Packet) (hkeeps : KeepsIds c a) :
    Sound (c.step a) [] := by
  obtain ⟨sender,packet⟩ := a
  cases packet with
  | addEvent past flags invites readable before =>
    exact h.handleCalendarAddEvent sender past flags invites readable before hkeeps
  | updateEvent past eventId flags =>
    show Sound (c.handleCalendarUpdateEvent past eventId flags) []
    unfold CalendarMgr.handleCalendarUpdateEvent
    split_ifs
    · exact h
    have hkeys := map_updateEvent eventId flags c.events
    refine ⟨?_,h.invites,fun invite hmem => ?_,h.givenEvents,h.givenInvites⟩
    · show IdPool.Ok UINT64 c.eventIds ([]++List.map _ _)
      rw [hkeys]
      exact h.events
    · show _∈[]++List.map _ _
      rw [hkeys]
      exact h.stored invite hmem
  | copyEvent past eventId before =>
    obtain ⟨-,hevents,hinvites⟩ := hkeeps
    show Sound (c.handleCalendarCopyEvent past eventId before) []
    unfold CalendarMgr.handleCalendarCopyEvent
    unfold eventIdsNeeded at hevents
    unfold inviteIdsNeeded at hinvites
    dsimp only at hevents hinvites
    cases past with
    | true => exact h
    | false =>
      rw [if_neg (by decide)]
      cases hevent : c.getEvent eventId with
      | none => exact h
      | some oldEvent =>
        rw [hevent] at hevents hinvites
        have hadded := @Sound.addEvent _ { oldEvent with eventId := c.getFreeEventId.1 }
          (h.getFreeEventId hevents) before
        refine hadded.copyInvites hinvites ?_
        have hperm := (perm_addEvent c.getFreeEventId.2 before
          { oldEvent with eventId := c.getFreeEventId.1 }).map CalendarEvent.eventId
        exact hperm.mem_iff.mpr List.mem_cons_self
  | eventInvite eventId inviteId invitee isPreInvite isGuildEvent =>
    obtain ⟨-,-,hinvites⟩ := hkeeps
    show Sound (c.handleCalendarEventInvite sender eventId invitee isPreInvite) []
    unfold CalendarMgr.handleCalendarEventInvite
    unfold inviteIdsNeeded at hinvites
    dsimp only at hinvites
    cases invitee with
    | none => exact h
    | some invitee =>
      cases isPreInvite with
      | true => exact h
      | false =>
        cases hevent : c.getEvent eventId with
        | none => exact h
        | some event =>
          rw [hevent] at hinvites
          dsimp only at hinvites ⊢
          rw [if_pos (by decide)]
          split_ifs with hguild
          · exact h
          · rw [if_neg (by simpa using hguild)] at hinvites
            exact (h.addInvite hinvites _ rfl (mem_keys hevent)).1
  | eventSignup eventId tentative now =>
    obtain ⟨-,-,hinvites⟩ := hkeeps
    show Sound (c.handleCalendarEventSignup sender eventId tentative now) []
    unfold CalendarMgr.handleCalendarEventSignup
    unfold inviteIdsNeeded at hinvites
    dsimp only at hinvites
    cases hevent : c.getEvent eventId with
    | none => exact h
    | some event =>
      rw [hevent] at hinvites
      dsimp only at hinvites ⊢
      by_cases hguild : (event.isGuildEvent && event.guildId≠sender.guildId)=true
      · rw [if_pos hguild]
        exact h
      · rw [if_neg hguild] at hinvites ⊢
        exact (h.addInvite hinvites _ rfl (mem_keys hevent)).1
  | eventRsvp eventId inviteId status now =>
    show Sound (c.handleCalendarEventRsvp eventId inviteId status now) []
    unfold CalendarMgr.handleCalendarEventRsvp
    split
    · exact h
    · split_ifs
      · exact h
      · exact h.modifyInvite inviteId fun _ => ⟨rfl,rfl⟩
  | eventStatus eventId inviteId status =>
    show Sound (c.handleCalendarEventStatus eventId inviteId status) []
    unfold CalendarMgr.handleCalendarEventStatus
    split
    · exact h
    · exact h.modifyInvite inviteId fun _ => ⟨rfl,rfl⟩
  | eventModeratorStatus eventId inviteId rank =>
    show Sound (c.handleCalendarEventModeratorStatus eventId inviteId rank) []
    unfold CalendarMgr.handleCalendarEventModeratorStatus
    split
    · exact h
    · exact h.modifyInvite inviteId fun _ => ⟨rfl,rfl⟩
  | eventRemoveInvite invitee inviteId eventId =>
    show Sound (c.handleCalendarEventRemoveInvite invitee inviteId eventId) []
    unfold CalendarMgr.handleCalendarEventRemoveInvite
    split
    · exact h
    · split_ifs
      · exact h
      · exact h.removeInvite inviteId eventId
  | removeEvent eventId => exact h.removeEvent eventId

/-- The ids are right in every state that the load and packets without an announcement reach,
while there are ids left. -/
theorem calendar_ids_right (db : Database) (hdb : RowsOk db) (as : List (Sender×Packet))
    (hkeeps : Meets CalendarMgr.step KeepsIds (loadFromDB db) as) :
    IdsRight (run CalendarMgr.step (loadFromDB db) as) := by
  have hsound : Sound (run CalendarMgr.step (loadFromDB db) as) [] :=
    run_invariant (I := fun c => Sound c []) (fun _ a h hkeeps => Sound.step h a hkeeps)
      (sound_load hdb) hkeeps
  exact hsound.idsRight

/-- Two events, of which the ids between are free, and their invites. -/
def sampleDatabase : Database where
  events := [⟨4,7,0,0⟩,⟨2,7,0,0⟩]
  invites := [⟨5,2,7,7,0,1,2⟩,⟨3,4,7,7,0,1,2⟩]
  eventKey := by decide
  inviteKey := by decide
  eventType := by decide
  inviteType := by decide

/-- An event is copied, a player signs up, and an event and an invite are removed. -/
theorem calendar_ids_right_sample :
    IdsRight (run CalendarMgr.step (loadFromDB sampleDatabase)
      [(⟨7,0⟩,.copyEvent false 2 1),(⟨8,0⟩,.eventSignup 1 true 5),(⟨7,0⟩,.removeEvent 4),
        (⟨7,0⟩,.eventRemoveInvite 8 2 1),
        (⟨9,0⟩,.addEvent false 0 [(9,1,2),(8,0,0)] true 0)]) :=
  calendar_ids_right sampleDatabase ⟨by decide,by decide,by decide⟩ _ (by decide)

/-- No event and no invite. -/
def emptyDatabase : Database where
  events := []
  invites := []
  eventKey := by decide
  inviteKey := by decide
  eventType := by decide
  inviteType := by decide

/-- Each guild announcement gives back the id zero, and the event after it gives it to an
invite: two live invites have it. -/
theorem announcements_give_zero :
    let c := run CalendarMgr.step (loadFromDB emptyDatabase)
      [(⟨7,1⟩,.addEvent false 0x40 [] true 0),(⟨7,1⟩,.addEvent false 0 [(7,1,2)] true 0),
        (⟨7,1⟩,.addEvent false 0x40 [] true 0),(⟨7,1⟩,.addEvent false 0 [(7,1,2)] true 0)]
    c.inviteKeys=[0,0] ∧ c.givenInviteIds=[⟨0,[0]⟩,⟨0,[]⟩] ∧ ¬IdsRight c := by
  refine ⟨by decide,by decide,fun h => ?_⟩
  exact absurd h.invites.1 (by decide)

end Runs

end Projectnelth.CalendarModel
