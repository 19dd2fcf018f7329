import Mathlib
import Projectnelth.CalendarIds
import Projectnelth.FirstOfKey

/-!
# Cleaning up after a player

Two functions remove what a player has in the calendar: first events, in a walk over the set of
events, and then invites, from a list taken after that. `RemoveEvent` erases the node of the set
the walk stands on. An iterator that is moved on from an erased node, or a deleted invite that is
read, ends the run.
-/

namespace Projectnelth.CalendarModel

open FirstOfKey

namespace CalendarMgr

/-- The walk over the set of events that removes some of them, from the node the iterator stands
on to the end. -/
def walkEvents (remove : CalendarEvent → Bool) :
    CalendarMgr → List CalendarEvent → Option CalendarMgr
  | c,[] => some c
  | c,event::rest =>
    if remove event then
      -- `RemoveEvent` erases the first node with the id, which may be one that was passed
      let passed := c.events.take (c.events.length-(rest.length+1))
      if passed.any fun other => other.eventId=event.eventId then
        walkEvents remove (c.removeEvent event.eventId) rest
      else none
    else walkEvents remove c rest

/-- `GetPlayerInvites`, with the numbers that stand for the pointers. -/
def getPlayerInvites (c : CalendarMgr) (guid : ℕ) : List (CalendarInvite×ℕ) :=
  c.invites.zipIdx.filter fun x => x.1.invitee=guid

end CalendarMgr

/-- What `RemoveInvite` goes by. -/
def inviteKey (invite : CalendarInvite) : ℕ×ℕ := (invite.eventId,invite.inviteId)

namespace CalendarMgr

/-- The loop over the invites of a player, where `left` has the invites that are not deleted. -/
def walkInvites (remove : CalendarMgr → CalendarInvite → Bool) :
    CalendarMgr → List (CalendarInvite×ℕ) → List (CalendarInvite×ℕ) → Option CalendarMgr
  | c,_,[] => some c
  | c,left,x::rest =>
    if x∈left then
      if remove c x.1 then
        walkInvites remove (c.removeInvite x.1.inviteId x.1.eventId)
          (left.eraseP fun y => inviteKey y.1=inviteKey x.1) rest
      else walkInvites remove c left rest
    else none

def removeAllPlayerEventsAndInvites (c : CalendarMgr) (guid : ℕ) : Option CalendarMgr := do
  let c ← c.walkEvents (fun event => event.creatorGUID=guid) c.events
  -- `RemoveInvite` returns for an event that is not there
  c.walkInvites (fun c invite => (c.getEvent invite.eventId).isSome) c.invites.zipIdx
    (c.getPlayerInvites guid)

def removePlayerGuildEventsAndSignups (c : CalendarMgr) (guid guildId : ℕ) :
    Option CalendarMgr := do
  let c ← c.walkEvents (fun event => event.creatorGUID=guid &&
    (event.isGuildEvent || event.isGuildAnnouncement)) c.events
  c.walkInvites (fun c invite => (c.getEvent invite.eventId).any fun event =>
    event.isGuildEvent && event.guildId=guildId) c.invites.zipIdx (c.getPlayerInvites guid)

end CalendarMgr

variable {c c' : CalendarMgr} {remove : CalendarEvent → Bool} {allowed : CalendarEvent → Bool}

/-! ## The walk over the events -/

theorem events_removeEvent (c : CalendarMgr) (eventId : ℕ) :
    (c.removeEvent eventId).events=c.events.eraseP fun event => event.eventId=eventId := by
  unfold CalendarMgr.removeEvent CalendarMgr.getEvent
  split
  · rename_i hnone
    rw [List.eraseP_of_forall_not]
    intro event hevent
    simpa using List.find?_eq_none.mp hnone event hevent
  · obtain ⟨pool,hpool⟩ :=
      freeInvites_same (c.invites.filter fun invite => invite.eventId=eventId) c
    rw [hpool]
    rfl

/-- A walk that removes nothing changes nothing. -/
theorem walkEvents_none {rest : List CalendarEvent} (h : ∀ event∈rest,remove event=false) :
    c.walkEvents remove rest=some c := by
  induction rest with
  | nil => rfl
  | cons event rest ih =>
    unfold CalendarMgr.walkEvents
    rw [h event List.mem_cons_self,if_neg Bool.false_ne_true]
    exact ih fun other hother => h other (List.mem_cons_of_mem event hother)

/-- A walk that comes to its end leaves the last event that it was to remove. -/
theorem walkEvents_left {front rest : List CalendarEvent} (hevents : c.events=front++rest)
    (hsome : ∃ event∈rest,remove event=true) (h : c.walkEvents remove rest=some c') :
    ∃ event∈c'.events,remove event=true := by
  induction rest generalizing c front with
  | nil =>
    obtain ⟨_,hnil,_⟩ := hsome
    cases hnil
  | cons event rest ih =>
    unfold CalendarMgr.walkEvents at h
    cases hremove : remove event with
    | false =>
      rw [hremove,if_neg Bool.false_ne_true] at h
      obtain ⟨other,hother,hother'⟩ := hsome
      rcases List.mem_cons.mp hother with rfl | hrest
      · rw [hremove] at hother'
        cases hother'
      · exact @ih c (front++[event]) (by rw [hevents]; simp) ⟨other,hrest,hother'⟩ h
    | true =>
      rw [hremove,if_pos rfl] at h
      have htake : c.events.take (c.events.length-(rest.length+1))=front := by
        rw [hevents,List.length_append,List.length_cons,Nat.add_sub_cancel]
        exact List.take_left'  rfl
      rw [htake] at h
      dsimp only at h
      split at h
      · rename_i hpassed
        have hevents' : (c.removeEvent event.eventId).events=
            front.eraseP (fun other => other.eventId=event.eventId)++event::rest := by
          obtain ⟨other,hother,hid⟩ := List.any_eq_true.mp hpassed
          rw [events_removeEvent,hevents]
          exact List.eraseP_append_left (p := fun other : CalendarEvent => other.eventId=event.eventId)
            hid _ hother
        by_cases hmore : ∃ event∈rest,remove event=true
        · exact @ih _ (front.eraseP (fun other => other.eventId=event.eventId)++[event])
            (by rw [hevents']; simp) hmore h
        have hnone : ∀ event∈rest,remove event=false := by
          intro other hother
          by_contra hne
          exact hmore ⟨other,hother,Bool.of_not_eq_false hne⟩
        rw [walkEvents_none hnone] at h
        obtain rfl := Option.some.inj h
        refine ⟨event,?_,hremove⟩
        rw [hevents']
        exact List.mem_append_right _ List.mem_cons_self
      · cases h

/-! ## The loop over the invites -/

/-- Which invites are removed depends on the events only, and an invite is removed from an event
that is there. -/
structure ByEvents (remove : CalendarMgr → CalendarInvite → Bool) : Prop where
  events : ∀ c c',c'.events=c.events → remove c'=remove c
  event : ∀ c invite invite',invite.eventId=invite'.eventId → remove c invite=remove c invite'
  there : ∀ c invite,remove c invite=true → (c.getEvent invite.eventId).isSome=true

variable {drop : CalendarMgr → CalendarInvite → Bool} {left : List (CalendarInvite×ℕ)}

/-- The manager after some invites were erased. -/
def CalendarMgr.withoutInvites (c : CalendarMgr) (left erased : List CalendarInvite) :
    CalendarMgr :=
  { c with
    invites := left
    inviteIds := erased.foldl (fun pool invite => pool.release UINT64 invite.inviteId) c.inviteIds }

theorem removeInvite_eq {x : CalendarInvite×ℕ} (hleft : left.map Prod.fst=c.invites) (hx : x∈left)
    (hevent : (c.getEvent x.1.eventId).isSome=true) :
    ∃ y,left.find? (fun y => inviteKey y.1=inviteKey x.1)=some y ∧
      c.removeInvite x.1.inviteId x.1.eventId=
        c.withoutInvites ((left.eraseP fun y => inviteKey y.1=inviteKey x.1).map Prod.fst) [y.1] := by
  have hkey : (fun y : CalendarInvite×ℕ => decide (inviteKey y.1=inviteKey x.1))=
      (fun i : CalendarInvite => i.eventId=x.1.eventId && i.inviteId=x.1.inviteId)∘Prod.fst := by
    funext y
    unfold inviteKey
    rw [Bool.eq_iff_iff]
    simp
  obtain ⟨y,hy⟩ := Option.isSome_iff_exists.mp
    (List.find?_isSome (p := fun y => inviteKey y.1=inviteKey x.1) |>.mpr ⟨x,hx,by simp⟩)
  refine ⟨y,hy,?_⟩
  obtain ⟨event,hfound⟩ := Option.isSome_iff_exists.mp hevent
  have hfind : c.invites.find? (fun i => i.eventId=x.1.eventId && i.inviteId=x.1.inviteId)=
      some y.1 := by
    rw [← hleft,List.find?_map,← hkey,hy]
    rfl
  unfold CalendarMgr.removeInvite CalendarMgr.withoutInvites
  rw [hfound]
  dsimp only
  rw [hfind]
  have hsame : (c.freeInviteId y.1.inviteId).invites=c.invites := rfl
  dsimp only
  rw [hsame,← hleft,List.eraseP_map,← hkey]
  rfl

theorem filter_cons_drop {x : CalendarInvite×ℕ} {xs : List (CalendarInvite×ℕ)}
    (hx : drop c x.1=true) :
    (x::xs).filter (fun x => drop c x.1)=x::xs.filter fun x => drop c x.1 :=
  List.filter_cons_of_pos hx

/-- The loop erases the first invite of each key, if it does not come to a deleted one. -/
theorem walkInvites_eq (hdrop : ByEvents drop) {xs : List (CalendarInvite×ℕ)}
    (hleft : left.map Prod.fst=c.invites)
    (hthere : ∀ before x after,xs=before++x::after →
      x∈(eraseAll (fun x => inviteKey x.1) (before.filter fun x => drop c x.1) left).1) :
    c.walkInvites drop left xs=some (c.withoutInvites
      ((eraseAll (fun x => inviteKey x.1) (xs.filter fun x => drop c x.1) left).1.map Prod.fst)
      ((eraseAll (fun x => inviteKey x.1) (xs.filter fun x => drop c x.1) left).2.map Prod.fst)) := by
  induction xs generalizing c left with
  | nil =>
    unfold CalendarMgr.walkInvites CalendarMgr.withoutInvites
    simp [eraseAll,hleft]
  | cons x xs ih =>
    have hx : x∈left := hthere [] x xs rfl
    unfold CalendarMgr.walkInvites
    rw [if_pos hx]
    cases hx' : drop c x.1 with
    | false =>
      rw [if_neg Bool.false_ne_true,List.filter_cons_of_neg (by simp [hx'])]
      refine ih hleft fun before y after hsplit => ?_
      have hin := hthere (x::before) y after (by rw [hsplit]; rfl)
      rwa [List.filter_cons_of_neg (by simp [hx'])] at hin
    | true =>
      obtain ⟨y,hy,hremove⟩ := removeInvite_eq hleft hx (hdrop.there c x.1 hx')
      have hsame : drop (c.withoutInvites
          ((left.eraseP fun y => inviteKey y.1=inviteKey x.1).map Prod.fst) [y.1])=drop c :=
        hdrop.events _ _ rfl
      rw [if_pos rfl,filter_cons_drop hx',eraseAll_some hy,hremove,ih]
      · rw [hsame]
        rfl
      · rfl
      intro before z after hsplit
      rw [hsame]
      have hin := hthere (x::before) z after (by rw [hsplit]; rfl)
      rwa [filter_cons_drop hx',eraseAll_some hy] at hin

/-- Which invites of a player go. -/
def CalendarMgr.leaves (c : CalendarMgr) (guid : ℕ)
    (drop : CalendarMgr → CalendarInvite → Bool) (invite : CalendarInvite) : Bool :=
  invite.invitee=guid && drop c invite

theorem filter_playerInvites (c : CalendarMgr) (guid : ℕ) :
    (c.getPlayerInvites guid).filter (fun x => drop c x.1)=
      c.invites.zipIdx.filter fun x => c.leaves guid drop x.1 := by
  unfold CalendarMgr.getPlayerInvites CalendarMgr.leaves
  rw [List.filter_filter]
  simp only [Bool.and_comm]

/-- No deleted invite is read, whatever invites there are. -/
theorem playerInvites_there (hdrop : ByEvents drop) (c : CalendarMgr) (guid : ℕ)
    (before : List (CalendarInvite×ℕ)) (x : CalendarInvite×ℕ) (after : List (CalendarInvite×ℕ))
    (h : c.getPlayerInvites guid=before++x::after) :
    x∈(eraseAll (fun x => inviteKey x.1) (before.filter fun x => drop c x.1)
      c.invites.zipIdx).1 := by
  have hmem : x∈c.getPlayerInvites guid := by
    rw [h]
    exact List.mem_append_right _ List.mem_cons_self
  cases hx : drop c x.1 with
  | true =>
    have hsplit : (c.invites.zipIdx.filter fun x => c.leaves guid drop x.1)=
        (before.filter fun x => drop c x.1)++x::after.filter fun x => drop c x.1 := by
      rw [← filter_playerInvites,h,List.filter_append,filter_cons_drop hx]
    exact still_there (p := fun x => c.leaves guid drop x.1) hsplit
  | false =>
    refine mem_left_of_ne (List.mem_of_mem_filter hmem) fun y hy heq => ?_
    have hy' := (List.mem_filter.mp hy).2
    rw [hdrop.event c y.1 x.1 (congrArg Prod.fst heq),hx] at hy'
    cases hy'

/-- The loop always comes to its end, and erases the first invites of each key. -/
theorem walkInvites_playerInvites (hdrop : ByEvents drop) (c : CalendarMgr) (guid : ℕ) :
    c.walkInvites drop c.invites.zipIdx (c.getPlayerInvites guid)=some (c.withoutInvites
      (eraseAll inviteKey (c.invites.filter (c.leaves guid drop)) c.invites).1
      (eraseAll inviteKey (c.invites.filter (c.leaves guid drop)) c.invites).2) := by
  have hfst := List.zipIdx_map_fst 0 c.invites
  have hfilter : (c.invites.zipIdx.filter fun x => c.leaves guid drop x.1).map Prod.fst=
      c.invites.filter (c.leaves guid drop) := by
    conv_rhs => rw [← hfst,List.filter_map]
    rfl
  have hmap := eraseAll_map inviteKey Prod.fst
    (c.invites.zipIdx.filter fun x => c.leaves guid drop x.1) c.invites.zipIdx
  rw [hfilter,hfst] at hmap
  rw [walkInvites_eq hdrop hfst (playerInvites_there hdrop c guid),filter_playerInvites,hmap]

/-! ## Both together -/

/-- Which invites are to go: those of removed events, and those of the player. -/
def CalendarMgr.gone (c : CalendarMgr) (remove : CalendarEvent → Bool)
    (leaves : CalendarInvite → Bool) (invite : CalendarInvite) : Bool :=
  (c.events.any fun event => remove event && event.eventId=invite.eventId) || leaves invite

/-- Exactly what is to go has gone. -/
structure CleanedUp (remove : CalendarEvent → Bool) (leaves : CalendarInvite → Bool)
    (c c' : CalendarMgr) : Prop where
  events : c'.events=c.events.filter fun event => !remove event
  invites : c'.invites=c.invites.filter fun invite => !c.gone remove leaves invite
  /-- The ids of the events have come back. -/
  eventIds : ∃ removed : List CalendarEvent,removed.Perm (c.events.filter remove) ∧
    c'.eventIds=removed.foldl (fun pool event => pool.release UINT64 event.eventId) c.eventIds
  inviteIds : ∃ removed : List CalendarInvite,
    removed.Perm (c.invites.filter (c.gone remove leaves)) ∧
    c'.inviteIds=removed.foldl (fun pool invite => pool.release UINT64 invite.inviteId) c.inviteIds
  /-- No id was given out. -/
  given : c'.givenEventIds=c.givenEventIds ∧ c'.givenInviteIds=c.givenInviteIds

/-- There is no event to remove, and of the invites with the same ids those that are to go come
first. -/
def Undisturbed (remove : CalendarEvent → Bool) (leaves : CalendarInvite → Bool)
    (c : CalendarMgr) : Prop :=
  (∀ event∈c.events,remove event=false) ∧
    c.invites.Pairwise fun invite other => inviteKey invite=inviteKey other →
      leaves other=true → leaves invite=true

instance (remove : CalendarEvent → Bool) (leaves : CalendarInvite → Bool) (c : CalendarMgr) :
    Decidable (Undisturbed remove leaves c) := inferInstanceAs (Decidable (_ ∧ _))

/-- A clean-up comes to its end and removes exactly what is to go if and only if it is not
disturbed. -/
theorem cleanedUp_iff (hdrop : ByEvents drop) (remove : CalendarEvent → Bool) (c : CalendarMgr)
    (guid : ℕ) :
    (∃ c',((c.walkEvents remove c.events).bind fun c =>
        c.walkInvites drop c.invites.zipIdx (c.getPlayerInvites guid))=some c' ∧
      CleanedUp remove (c.leaves guid drop) c c') ↔ Undisturbed remove (c.leaves guid drop) c := by
  have hgone : (∀ event∈c.events,remove event=false) →
      c.gone remove (c.leaves guid drop)=c.leaves guid drop := by
    intro hnone
    funext invite
    unfold CalendarMgr.gone
    rw [List.any_eq_false.mpr fun event hevent => by simp [hnone event hevent],Bool.false_or]
  constructor
  · rintro ⟨c',hrun,hclean⟩
    obtain ⟨mid,hmid,hrest⟩ := Option.bind_eq_some_iff.mp hrun
    rw [walkInvites_playerInvites hdrop] at hrest
    obtain rfl := Option.some.inj hrest
    -- the last event that is to go is still there at the end of the walk
    have hnone : ∀ event∈c.events,remove event=false := by
      intro event hevent
      by_contra hremove
      obtain ⟨other,hother,hleft⟩ := walkEvents_left (List.nil_append c.events).symm
        ⟨event,hevent,Bool.of_not_eq_false hremove⟩ hmid
      have hmem : other∈c.events.filter fun event => !remove event := hclean.events ▸ hother
      simp [hleft] at hmem
    rw [walkEvents_none hnone] at hmid
    obtain rfl := Option.some.inj hmid
    have hinvites := hclean.invites
    rw [hgone hnone] at hinvites
    exact ⟨hnone,(eraseAll_eq_iff inviteKey (c.leaves guid drop) c.invites).mp hinvites⟩
  · rintro ⟨hnone,hfirst⟩
    have hleft := (eraseAll_eq_iff inviteKey (c.leaves guid drop) c.invites).mpr hfirst
    rw [walkEvents_none hnone,Option.bind_some,walkInvites_playerInvites hdrop]
    refine ⟨_,rfl,?_,?_,⟨[],?_,rfl⟩,⟨_,?_,rfl⟩,rfl,rfl⟩
    · exact (List.filter_eq_self.mpr fun event hevent => by simp [hnone event hevent]).symm
    · rw [hgone hnone]
      exact hleft
    · rw [List.filter_eq_nil_iff.mpr fun event hevent => by simp [hnone event hevent]]
    · rw [hgone hnone]
      exact erased_perm hleft

theorem byEvents_any (allowed : CalendarEvent → Bool) :
    ByEvents fun c invite => (c.getEvent invite.eventId).any allowed := by
  refine ⟨fun c c' hevents => ?_,fun c invite invite' hid => by rw [hid],fun c invite h => ?_⟩
  · unfold CalendarMgr.getEvent
    rw [hevents]
  · cases hevent : c.getEvent invite.eventId with
    | none =>
      rw [hevent] at h
      cases h
    | some event => rfl

/-- The events of a player. -/
def createdBy (guid : ℕ) (event : CalendarEvent) : Bool := event.creatorGUID=guid

/-- The guild events and announcements of a player. -/
def guildEventOf (guid : ℕ) (event : CalendarEvent) : Bool :=
  event.creatorGUID=guid && (event.isGuildEvent || event.isGuildAnnouncement)

/-- The invites of a player to events that are there. -/
def invitedTo (c : CalendarMgr) (guid : ℕ) : CalendarInvite → Bool :=
  c.leaves guid fun c invite => (c.getEvent invite.eventId).isSome

/-- The invites of a player to guild events of a guild. -/
def signedUpTo (c : CalendarMgr) (guid guildId : ℕ) : CalendarInvite → Bool :=
  c.leaves guid fun c invite => (c.getEvent invite.eventId).any fun event =>
    event.isGuildEvent && event.guildId=guildId

/-- In every state of the calendar, for every player and guild, each of the two functions comes to
its end, uses nothing that was removed and removes exactly what it is to remove, if and only if the
player has no event of the kind and, among the invites with the same ids, those that are to go come
first. -/
theorem cleanUps_iff (c : CalendarMgr) (guid guildId : ℕ) :
    ((∃ c',c.removeAllPlayerEventsAndInvites guid=some c' ∧
        CleanedUp (createdBy guid) (invitedTo c guid) c c') ↔
      Undisturbed (createdBy guid) (invitedTo c guid) c) ∧
    ((∃ c',c.removePlayerGuildEventsAndSignups guid guildId=some c' ∧
        CleanedUp (guildEventOf guid) (signedUpTo c guid guildId) c c') ↔
      Undisturbed (guildEventOf guid) (signedUpTo c guid guildId) c) := by
  have hthere : (fun (c : CalendarMgr) (invite : CalendarInvite) =>
      (c.getEvent invite.eventId).isSome)=
      fun c invite => (c.getEvent invite.eventId).any fun _ => true := by
    funext c invite
    cases c.getEvent invite.eventId <;> rfl
  have hsome : ByEvents fun c invite => (c.getEvent invite.eventId).isSome := by
    rw [hthere]
    exact byEvents_any fun _ => true
  exact ⟨cleanedUp_iff hsome (createdBy guid) c guid,
    cleanedUp_iff (byEvents_any _) (guildEventOf guid) c guid⟩

/-- A calendar with one event of a player. -/
def ownEvent : CalendarMgr := ⟨[⟨1,7,0,0⟩],[],⟨1,[]⟩,⟨0,[]⟩,[],[]⟩

/-- The event is removed, and the walk goes on from its node. -/
theorem cleanUp_disturbed :
    ¬∃ c',ownEvent.removeAllPlayerEventsAndInvites 7=some c' ∧
      CleanedUp (createdBy 7) (invitedTo ownEvent 7) ownEvent c' := by
  have hnone : ownEvent.removeAllPlayerEventsAndInvites 7=none := by decide
  rw [hnone]
  rintro ⟨c',hc',_⟩
  cases hc'

end Projectnelth.CalendarModel
