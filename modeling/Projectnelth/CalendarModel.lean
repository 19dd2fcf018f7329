import Mathlib
import Projectnelth.IdPool

/-!
# The calendar

The events are a set of pointers, gone through in the order of the pointers, and the invites are
kept in a map from the id of their event. Ids come from the manager and go back to it when an
event or an invite is deleted. The handlers take the ids from the packet.
-/

namespace Projectnelth.CalendarModel

def CALENDAR_FLAG_INVITES_LOCKED : ℕ := 0x010
def CALENDAR_FLAG_WITHOUT_INVITES : ℕ := 0x040
def CALENDAR_FLAG_GUILD_EVENT : ℕ := 0x400

def CALENDAR_STATUS_INVITED : ℕ := 0
def CALENDAR_STATUS_SIGNED_UP : ℕ := 6
def CALENDAR_STATUS_NOT_SIGNED_UP : ℕ := 7
def CALENDAR_STATUS_TENTATIVE : ℕ := 8
def CALENDAR_STATUS_REMOVED : ℕ := 9

def CALENDAR_RANK_PLAYER : ℕ := 0

/-- The response time of an invite that was not answered. -/
def defaultResponseTime : ℕ := 946684800

def MaxPlayerInvites : ℕ := 100

/-- The numbers of `uint64`. -/
def UINT64 : ℕ := 2^64

structure CalendarEvent where
  eventId : ℕ
  creatorGUID : ℕ
  guildId : ℕ
  flags : ℕ
  deriving DecidableEq

def CalendarEvent.isGuildEvent (event : CalendarEvent) : Bool :=
  event.flags &&& CALENDAR_FLAG_GUILD_EVENT≠0

def CalendarEvent.isGuildAnnouncement (event : CalendarEvent) : Bool :=
  event.flags &&& CALENDAR_FLAG_WITHOUT_INVITES≠0

structure CalendarInvite where
  inviteId : ℕ
  eventId : ℕ
  invitee : ℕ
  senderGUID : ℕ
  statusTime : ℕ
  status : ℕ
  rank : ℕ
  deriving DecidableEq

/-- An id that was given out, and the ids that were in use then. -/
structure Given where
  id : ℕ
  /-- The ids that were in use. -/
  live : List ℕ
  deriving DecidableEq

structure CalendarMgr where
  /-- `_events`, in the order of the pointers. -/
  events : List CalendarEvent
  /-- `_invites`, in the order of the map. -/
  invites : List CalendarInvite
  /-- `_maxEventId` and `_freeEventIds`. -/
  eventIds : IdPool
  /-- `_maxInviteId` and `_freeInviteIds`. -/
  inviteIds : IdPool
  /-- What `GetFreeEventId` returned so far. -/
  givenEventIds : List Given
  /-- What `GetFreeInviteId` returned so far. -/
  givenInviteIds : List Given
  deriving DecidableEq

/-- `calendar_events` and `calendar_invites`. The id is the key of either table. -/
structure Database where
  events : List CalendarEvent
  invites : List CalendarInvite
  eventKey : (events.map CalendarEvent.eventId).Nodup
  inviteKey : (invites.map CalendarInvite.inviteId).Nodup
  eventType : ∀ id∈events.map CalendarEvent.eventId, id < UINT64
  inviteType : ∀ id∈invites.map CalendarInvite.inviteId, id < UINT64

namespace CalendarMgr

def getEvent (c : CalendarMgr) (eventId : ℕ) : Option CalendarEvent :=
  c.events.find? fun event => event.eventId=eventId

def getInvite (c : CalendarMgr) (inviteId : ℕ) : Option CalendarInvite :=
  c.invites.find? fun invite => invite.inviteId=inviteId

def freeEventId (c : CalendarMgr) (id : ℕ) : CalendarMgr :=
  { c with eventIds := c.eventIds.release UINT64 id }

def getFreeEventId (c : CalendarMgr) : ℕ×CalendarMgr :=
  let (id,eventIds) := c.eventIds.take UINT64
  (id,{ c with
    eventIds := eventIds
    givenEventIds := ⟨id,c.events.map CalendarEvent.eventId⟩::c.givenEventIds })

def freeInviteId (c : CalendarMgr) (id : ℕ) : CalendarMgr :=
  { c with inviteIds := c.inviteIds.release UINT64 id }

def getFreeInviteId (c : CalendarMgr) : ℕ×CalendarMgr :=
  let (id,inviteIds) := c.inviteIds.take UINT64
  (id,{ c with
    inviteIds := inviteIds
    givenInviteIds := ⟨id,c.invites.map CalendarInvite.inviteId⟩::c.givenInviteIds })

/-- `_invites[eventId].push_back`. -/
def pushInvite (c : CalendarMgr) (invite : CalendarInvite) : CalendarMgr :=
  { c with invites :=
    c.invites.filter (fun i => i.eventId ≤ invite.eventId)++
      invite::c.invites.filter fun i => invite.eventId < i.eventId }

def loadFromDB (db : Database) : CalendarMgr :=
  let stored := db.invites.foldl (fun c invite => pushInvite c invite)
    ⟨db.events,[],⟨0,[]⟩,⟨0,[]⟩,[],[]⟩
  { stored with
    eventIds := IdPool.load (db.events.map CalendarEvent.eventId)
    inviteIds := IdPool.load (db.invites.map CalendarInvite.inviteId) }

/-- `AddEvent`. The pointer of the event is above those of as many events as `before` says. -/
def addEvent (c : CalendarMgr) (before : ℕ) (event : CalendarEvent) : CalendarMgr :=
  { c with events := c.events.take before++event::c.events.drop before }

def addInvite (c : CalendarMgr) (event : CalendarEvent) (invite : CalendarInvite) :
    CalendarMgr :=
  if !event.isGuildAnnouncement then c.pushInvite invite else c

/-- The loop of `RemoveEvent` over the invites. -/
def freeInvites (c : CalendarMgr) (invites : List CalendarInvite) : CalendarMgr :=
  invites.foldl (fun c invite => c.freeInviteId invite.inviteId) c

def removeEvent (c : CalendarMgr) (eventId : ℕ) : CalendarMgr :=
  match c.getEvent eventId with
  | none => c
  | some event =>
    let c := c.freeInvites (c.invites.filter fun invite => invite.eventId=eventId)
    let c := { c with invites := c.invites.filter fun invite => invite.eventId≠eventId }
    let c := c.freeEventId event.eventId
    { c with events := c.events.eraseP fun event => event.eventId=eventId }

def removeInvite (c : CalendarMgr) (inviteId eventId : ℕ) : CalendarMgr :=
  match c.getEvent eventId with
  | none => c
  | some _ =>
    match c.invites.find? fun i => i.eventId=eventId && i.inviteId=inviteId with
    | none => c
    | some invite =>
      let c := c.freeInviteId invite.inviteId
      { c with invites := c.invites.eraseP fun i => i.eventId=eventId && i.inviteId=inviteId }

/-- The invite that `GetInvite` finds is written. -/
def modifyInvite (c : CalendarMgr) (inviteId : ℕ) (f : CalendarInvite → CalendarInvite) :
    CalendarMgr :=
  { c with invites := write c.invites }
where
  write : List CalendarInvite → List CalendarInvite
    | [] => []
    | invite::rest => if invite.inviteId=inviteId then f invite::rest else invite::write rest

end CalendarMgr

/-- The player who sends a packet. -/
structure Sender where
  /-- `GetGUID`. -/
  guid : ℕ
  /-- `GetGuildId`. -/
  guildId : ℕ
  deriving DecidableEq

/-- The packets, with what the server finds for them. -/
inductive Packet where
  /-- `CMSG_CALENDAR_ADD_EVENT`: the time is past, the flags, the invites, whether the list of
  invites can be read, and the place of the new pointer. -/
  | addEvent (past : Bool) (flags : ℕ) (invites : List (ℕ×ℕ×ℕ)) (readable : Bool) (before : ℕ)
  /-- `CMSG_CALENDAR_UPDATE_EVENT`. -/
  | updateEvent (past : Bool) (eventId flags : ℕ)
  /-- `CMSG_CALENDAR_COPY_EVENT`. -/
  | copyEvent (past : Bool) (eventId before : ℕ)
  /-- `CMSG_CALENDAR_EVENT_INVITE`: the invitee and the guild, where the invitee is found and
  may be invited. -/
  | eventInvite (eventId inviteId : ℕ) (invitee : Option (ℕ×ℕ)) (isPreInvite isGuildEvent : Bool)
  /-- `CMSG_CALENDAR_EVENT_SIGNUP`. -/
  | eventSignup (eventId : ℕ) (tentative : Bool) (now : ℕ)
  /-- `CMSG_CALENDAR_EVENT_RSVP`. -/
  | eventRsvp (eventId inviteId status now : ℕ)
  /-- `CMSG_CALENDAR_EVENT_STATUS`. -/
  | eventStatus (eventId inviteId status : ℕ)
  /-- `CMSG_CALENDAR_EVENT_MODERATOR_STATUS`. -/
  | eventModeratorStatus (eventId inviteId rank : ℕ)
  /-- `CMSG_CALENDAR_EVENT_REMOVE_INVITE`. -/
  | eventRemoveInvite (invitee inviteId eventId : ℕ)
  /-- `CMSG_CALENDAR_REMOVE_EVENT`. -/
  | removeEvent (eventId : ℕ)
  deriving DecidableEq

namespace CalendarMgr

/-- The loop of `HandleCalendarAddEvent` over the invites. -/
def addInvites (c : CalendarMgr) (event : CalendarEvent) (guid : ℕ) :
    List (ℕ×ℕ×ℕ) → CalendarMgr
  | [] => c
  | (invitee,status,rank)::rest =>
    let (inviteId,c) := c.getFreeInviteId
    (c.addInvite event ⟨inviteId,event.eventId,invitee,guid,defaultResponseTime,status,rank⟩
      ).addInvites event guid rest

def handleCalendarAddEvent (c : CalendarMgr) (sender : Sender) (past : Bool) (flags : ℕ)
    (invites : List (ℕ×ℕ×ℕ)) (readable : Bool) (before : ℕ) : CalendarMgr :=
  if past then c
  else
    let (eventId,c) := c.getFreeEventId
    let event : CalendarEvent := ⟨eventId,sender.guid,0,flags⟩
    let event :=
      if event.isGuildEvent || event.isGuildAnnouncement then
        { event with guildId := sender.guildId }
      else event
    if event.isGuildAnnouncement then
      let invite : CalendarInvite := ⟨0,event.eventId,0,sender.guid,defaultResponseTime,
        CALENDAR_STATUS_NOT_SIGNED_UP,CALENDAR_RANK_PLAYER⟩
      let c := c.addInvite event invite
      let c := c.freeInviteId invite.inviteId
      c.addEvent before event
    else if !readable then c.freeEventId event.eventId
    else (c.addInvites event sender.guid (invites.take MaxPlayerInvites)).addEvent before event

def handleCalendarUpdateEvent (c : CalendarMgr) (past : Bool) (eventId flags : ℕ) :
    CalendarMgr :=
  if past then c else { c with events := write c.events }
where
  write : List CalendarEvent → List CalendarEvent
    | [] => []
    | event::rest =>
      if event.eventId=eventId then { event with flags := flags }::rest else event::write rest

/-- The loop of `HandleCalendarCopyEvent` over the invites. -/
def copyInvites (c : CalendarMgr) (event : CalendarEvent) : List CalendarInvite → CalendarMgr
  | [] => c
  | invite::rest =>
    let (inviteId,c) := c.getFreeInviteId
    (c.addInvite event { invite with inviteId := inviteId, eventId := event.eventId }
      ).copyInvites event rest

def handleCalendarCopyEvent (c : CalendarMgr) (past : Bool) (eventId before : ℕ) : CalendarMgr :=
  if past then c
  else
    match c.getEvent eventId with
    | none => c
    | some oldEvent =>
      let (newId,c) := c.getFreeEventId
      let newEvent := { oldEvent with eventId := newId }
      let c := c.addEvent before newEvent
      c.copyInvites newEvent (c.invites.filter fun invite => invite.eventId=eventId)

/-- `HandleCalendarEventInvite`. The invite of a pre-invite is made with the id of the packet
and is neither stored nor deleted. -/
def handleCalendarEventInvite (c : CalendarMgr) (sender : Sender) (eventId : ℕ)
    (invitee : Option (ℕ×ℕ)) (isPreInvite : Bool) : CalendarMgr :=
  match invitee with
  | none => c
  | some (inviteeGuid,inviteeGuildId) =>
    if !isPreInvite then
      match c.getEvent eventId with
      | none => c
      | some event =>
        if event.isGuildEvent && event.guildId=inviteeGuildId then c
        else
          let (inviteId,c) := c.getFreeInviteId
          c.addInvite event ⟨inviteId,eventId,inviteeGuid,sender.guid,defaultResponseTime,
            CALENDAR_STATUS_INVITED,CALENDAR_RANK_PLAYER⟩
    else c

def handleCalendarEventSignup (c : CalendarMgr) (sender : Sender) (eventId : ℕ)
    (tentative : Bool) (now : ℕ) : CalendarMgr :=
  match c.getEvent eventId with
  | none => c
  | some event =>
    if event.isGuildEvent && event.guildId≠sender.guildId then c
    else
      let status := if tentative then CALENDAR_STATUS_TENTATIVE else CALENDAR_STATUS_SIGNED_UP
      let (inviteId,c) := c.getFreeInviteId
      c.addInvite event
        ⟨inviteId,eventId,sender.guid,sender.guid,now,status,CALENDAR_RANK_PLAYER⟩

def handleCalendarEventRsvp (c : CalendarMgr) (eventId inviteId status now : ℕ) : CalendarMgr :=
  match c.getEvent eventId with
  | none => c
  | some event =>
    if status≠CALENDAR_STATUS_REMOVED ∧ event.flags &&& CALENDAR_FLAG_INVITES_LOCKED≠0 then c
    else
      c.modifyInvite inviteId fun invite => { invite with status := status, statusTime := now }

def handleCalendarEventStatus (c : CalendarMgr) (eventId inviteId status : ℕ) : CalendarMgr :=
  match c.getEvent eventId with
  | none => c
  | some _ => c.modifyInvite inviteId fun invite => { invite with status := status }

def handleCalendarEventModeratorStatus (c : CalendarMgr) (eventId inviteId rank : ℕ) :
    CalendarMgr :=
  match c.getEvent eventId with
  | none => c
  | some _ => c.modifyInvite inviteId fun invite => { invite with rank := rank }

def handleCalendarEventRemoveInvite (c : CalendarMgr) (invitee inviteId eventId : ℕ) :
    CalendarMgr :=
  match c.getEvent eventId with
  | none => c
  | some event =>
    if event.creatorGUID=invitee then c else c.removeInvite inviteId eventId

/-- A packet is handled. -/
def step (c : CalendarMgr) (a : Sender×Packet) : CalendarMgr :=
  match a.2 with
  | .addEvent past flags invites readable before =>
    c.handleCalendarAddEvent a.1 past flags invites readable before
  | .updateEvent past eventId flags => c.handleCalendarUpdateEvent past eventId flags
  | .copyEvent past eventId before => c.handleCalendarCopyEvent past eventId before
  | .eventInvite eventId _ invitee isPreInvite _ =>
    c.handleCalendarEventInvite a.1 eventId invitee isPreInvite
  | .eventSignup eventId tentative now => c.handleCalendarEventSignup a.1 eventId tentative now
  | .eventRsvp eventId inviteId status now => c.handleCalendarEventRsvp eventId inviteId status now
  | .eventStatus eventId inviteId status => c.handleCalendarEventStatus eventId inviteId status
  | .eventModeratorStatus eventId inviteId rank =>
    c.handleCalendarEventModeratorStatus eventId inviteId rank
  | .eventRemoveInvite invitee inviteId eventId =>
    c.handleCalendarEventRemoveInvite invitee inviteId eventId
  | .removeEvent eventId => c.removeEvent eventId

end CalendarMgr

end Projectnelth.CalendarModel
