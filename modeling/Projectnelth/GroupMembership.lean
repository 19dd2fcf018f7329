import Mathlib
import Projectnelth.FlagMasks
import Projectnelth.GroupModel
import Projectnelth.RunInvariant

/-!
# Membership of a group

The counters follow the member slots through every operation, and the flags and icons
stay unique. The leader stays a plain member unless the assistant flag is set on the
leader itself, or no member is found in the world when the leader goes.
-/

namespace Projectnelth.GroupModel

open FlagMasks RunInvariant

section Flags
variable {flag flag' : UInt8}

/-- Setting or clearing a flag is seen by no other flag. -/
theorem hasFlag_toggle_of_disjoint (h : flag &&& flag'=0) (apply : Bool) (slot : MemberSlot) :
    hasFlag flag' (toggleGroupMemberFlag flag apply slot)=hasFlag flag' slot := by
  unfold hasFlag toggleGroupMemberFlag
  cases apply with
  | true => simp only [if_true,or_and_of_disjoint slot.flags h]
  | false => simp only [Bool.false_eq_true,if_false,clear_and_of_disjoint slot.flags h]

/-- A cleared flag is gone. -/
theorem hasFlag_toggle_false (flag : UInt8) (slot : MemberSlot) :
    hasFlag flag (toggleGroupMemberFlag flag false slot)=false := by
  unfold hasFlag toggleGroupMemberFlag
  simp only [Bool.false_eq_true,if_false,clear_and_self,ne_eq,not_true_eq_false,decide_false]

end Flags

theorem getMemberSlot_split {slots : List MemberSlot} {guid : UInt64} {slot : MemberSlot}
    (h : getMemberSlot slots guid=some slot) :
    slot.guid=guid ∧ ∃ l₁ l₂,slots=l₁++slot::l₂ ∧
      (∀ f,updateSlot guid f slots=l₁++f slot::l₂) ∧
      slots.eraseP (fun slot => slot.guid=guid)=l₁++l₂ := by
  induction slots with
  | nil => exact absurd h (Option.some_ne_none slot).symm
  | cons head slots ih =>
    by_cases hhead : head.guid=guid
    · have hslot : head=slot := by simpa [getMemberSlot,hhead] using h
      subst hslot
      exact ⟨hhead,[],slots,rfl,fun f => if_pos hhead,by simp [hhead]⟩
    · obtain ⟨hguid,l₁,l₂,hslots,hupdate,herase⟩ := ih (by simpa [getMemberSlot,hhead] using h)
      refine ⟨hguid,head::l₁,l₂,congrArg _ hslots,fun f => ?_,?_⟩
      · rw [updateSlot,if_neg hhead,hupdate]
        rfl
      · rw [List.eraseP_cons_of_neg (by simpa using hhead),herase]
        rfl

theorem getMemberSlot_none {slots : List MemberSlot} {guid : UInt64}
    (h : getMemberSlot slots guid=none) : ∀ slot∈slots,slot.guid≠guid := fun slot hslot heq =>
  List.find?_eq_none.mp h slot hslot (decide_eq_true heq)

/-- The number of the member slots in a subgroup. -/
def subgroupSize (slots : List MemberSlot) (subgroup : Fin MAX_RAID_SUBGROUPS) : ℕ :=
  slots.countP fun slot => slot.group=subgroup

/-- The counters are the numbers of the member slots. -/
def Counts (counts : SubGroupsCounts) (slots : List MemberSlot) : Prop :=
  ∀ subgroup,(counts subgroup).toNat=subgroupSize slots subgroup

section Counters
variable {slots : List MemberSlot} {counts : SubGroupsCounts} {slot : MemberSlot}

theorem subgroupSize_cons (slot : MemberSlot) (slots : List MemberSlot)
    (subgroup : Fin MAX_RAID_SUBGROUPS) :
    subgroupSize (slot::slots) subgroup=
      subgroupSize slots subgroup+if slot.group=subgroup then 1 else 0 := by
  unfold subgroupSize
  rw [List.countP_cons]
  simp only [decide_eq_true_eq]

theorem subgroupSize_perm {slots' : List MemberSlot} (h : slots.Perm slots')
    (subgroup : Fin MAX_RAID_SUBGROUPS) : subgroupSize slots subgroup=subgroupSize slots' subgroup :=
  h.countP_eq _

theorem Counts.perm {slots' : List MemberSlot} (h : Counts counts slots)
    (hperm : slots.Perm slots') : Counts counts slots' := fun subgroup =>
  (h subgroup).trans (subgroupSize_perm hperm subgroup)

theorem Counts.increase (h : Counts counts slots) (slot : MemberSlot)
    (hroom : subgroupSize slots slot.group < 255) :
    Counts (subGroupCounterIncrease slot.group counts) (slot::slots) := by
  intro subgroup
  unfold subGroupCounterIncrease
  rw [subgroupSize_cons]
  by_cases hsub : subgroup=slot.group
  · subst hsub
    rw [Function.update_self,if_pos rfl,UInt8.toNat_add,h]
    exact Nat.mod_eq_of_lt (by simp only [UInt8.toNat_one]; omega)
  · rw [Function.update_of_ne hsub,if_neg (Ne.symm hsub),Nat.add_zero]
    exact h subgroup

theorem Counts.decrease (h : Counts counts (slot::slots)) :
    Counts (subGroupCounterDecrease slot.group counts) slots := by
  intro subgroup
  have hsize := h subgroup
  unfold subGroupCounterDecrease
  rw [subgroupSize_cons] at hsize
  by_cases hsub : subgroup=slot.group
  · subst hsub
    rw [if_pos rfl] at hsize
    rw [Function.update_self,UInt8.toNat_sub_of_le]
    · rw [hsize,UInt8.toNat_one,Nat.add_sub_cancel]
    · rw [UInt8.le_iff_toNat_le,hsize,UInt8.toNat_one]
      omega
  · rw [if_neg (Ne.symm hsub),Nat.add_zero] at hsize
    rw [Function.update_of_ne hsub]
    exact hsize

/-- The counters that are made anew are the numbers of the member slots. -/
theorem counts_init (h : ∀ subgroup,subgroupSize slots subgroup ≤ MAXGROUPSIZE) :
    Counts (initRaidSubGroupsCounter slots) slots := by
  have hfold : ∀ rest done counts,Counts counts done →
      (∀ subgroup,subgroupSize (rest++done) subgroup ≤ MAXGROUPSIZE) →
      Counts (rest.foldl (fun counts slot => subGroupCounterIncrease slot.group counts) counts)
        (rest++done) := by
    intro rest
    induction rest with
    | nil => exact fun done counts hdone _ => hdone
    | cons slot rest ih =>
      intro done counts hdone hbound
      have hmiddle : (rest++slot::done).Perm (slot::rest++done) := List.perm_middle
      have hroom : subgroupSize done slot.group < 255 := by
        have hone := hbound slot.group
        have hle : subgroupSize done slot.group ≤ subgroupSize (slot::rest++done) slot.group :=
          (List.sublist_append_right _ _).countP_le
        unfold MAXGROUPSIZE at hone
        omega
      refine (ih (slot::done) _ (hdone.increase slot hroom) fun subgroup => ?_).perm hmiddle
      rw [subgroupSize_perm hmiddle]
      exact hbound subgroup
  have hall := hfold slots [] (fun _ => 0) (fun _ => rfl) (by rwa [List.append_nil])
  rwa [List.append_nil] at hall

end Counters

/-- The counters of a group and the sizes of its subgroups. -/
structure Counted (g : Group) : Prop where
  allocated : g.subGroupsCounts.isSome=isRaidGroup g
  exact : ∀ counts,g.subGroupsCounts=some counts → Counts counts g.memberSlots
  /-- No subgroup is too big. -/
  bound : ∀ subgroup,subgroupSize g.memberSlots subgroup ≤ MAXGROUPSIZE
  small : g.subGroupsCounts=none → g.memberSlots.length ≤ MAXGROUPSIZE

/-- The member slots, without a leader. -/
structure Roster (slots : List MemberSlot) : Prop where
  /-- No player has two slots. -/
  distinct : (slots.map MemberSlot.guid).Nodup
  /-- There is at most one main tank and at most one main assistant. -/
  single : ∀ flag,flag=MEMBER_FLAG_MAINTANK ∨ flag=MEMBER_FLAG_MAINASSIST →
    slots.countP (hasFlag flag) ≤ 1

/-- The member slots and the leader among them. -/
structure Members (slots : List MemberSlot) (leaderGuid : UInt64) : Prop extends
    Roster slots where
  leader : ∃ slot∈slots,slot.guid=leaderGuid
  plain : ∀ slot∈slots,slot.guid=leaderGuid → hasFlag MEMBER_FLAG_ASSISTANT slot=false

/-- What holds of a group at all times. -/
structure Sound (g : Group) : Prop where
  counted : Counted g
  members : Members g.memberSlots g.leaderGuid
  icons : ∀ i j,g.targetIcons i≠0 → g.targetIcons i=g.targetIcons j → i=j

section Slots
variable {slots l₁ l₂ : List MemberSlot} {slot : MemberSlot} {leaderGuid : UInt64}

theorem Roster.sublist {slots' : List MemberSlot} (h : Roster slots) (hsub : slots'.Sublist slots) :
    Roster slots' :=
  ⟨h.distinct.sublist (hsub.map _),fun flag hflag => hsub.countP_le.trans (h.single flag hflag)⟩

theorem countP_modify {changed : MemberSlot} {p : MemberSlot → Bool} (h : p changed=p slot) :
    (l₁++changed::l₂).countP p=(l₁++slot::l₂).countP p := by
  rw [List.countP_append,List.countP_append,List.countP_cons,List.countP_cons,h]

theorem map_modify {β : Type*} {changed : MemberSlot} {f : MemberSlot → β} (h : f changed=f slot) :
    (l₁++changed::l₂).map f=(l₁++slot::l₂).map f := by
  rw [List.map_append,List.map_append,List.map_cons,List.map_cons,h]

theorem Roster.toggleAssistant (h : Roster (l₁++slot::l₂)) (apply : Bool) :
    Roster (l₁++toggleGroupMemberFlag MEMBER_FLAG_ASSISTANT apply slot::l₂) := by
  refine ⟨?_,fun flag hflag => ?_⟩
  · rw [map_modify (show (toggleGroupMemberFlag _ apply slot).guid=slot.guid from rfl)]
    exact h.distinct
  · rw [countP_modify (hasFlag_toggle_of_disjoint (by rcases hflag with rfl | rfl <;> decide) _ _)]
    exact h.single flag hflag

theorem Members.modify {changed : MemberSlot} (h : Members (l₁++slot::l₂) leaderGuid)
    (hroster : Roster (l₁++changed::l₂)) (hguid : changed.guid=slot.guid)
    (hplain : slot.guid=leaderGuid → hasFlag MEMBER_FLAG_ASSISTANT changed=false) :
    Members (l₁++changed::l₂) leaderGuid := by
  refine ⟨hroster,?_,fun other hother hleader => ?_⟩
  · have hmem : leaderGuid∈(l₁++slot::l₂).map MemberSlot.guid := List.mem_map.mpr h.leader
    have hsame : (l₁++changed::l₂).map MemberSlot.guid=(l₁++slot::l₂).map MemberSlot.guid :=
      map_modify hguid
    rw [←hsame] at hmem
    exact List.mem_map.mp hmem
  · rcases List.mem_append.mp hother with h₁ | h₂
    · exact h.plain other (List.mem_append_left _ h₁) hleader
    · rcases List.mem_cons.mp h₂ with rfl | h₂
      · exact hplain (hguid.symm.trans hleader)
      · exact h.plain other (List.mem_append_right _ (List.mem_cons_of_mem _ h₂)) hleader

theorem Members.erase (h : Members (l₁++slot::l₂) leaderGuid) (hslot : slot.guid≠leaderGuid) :
    Members (l₁++l₂) leaderGuid := by
  have hsub : (l₁++l₂).Sublist (l₁++slot::l₂) := (List.sublist_cons_self slot l₂).append_left l₁
  refine ⟨h.toRoster.sublist hsub,?_,fun other hother => h.plain other (hsub.subset hother)⟩
  obtain ⟨leader,hmem,hleader⟩ := h.leader
  rcases List.mem_append.mp hmem with h₁ | h₂
  · exact ⟨leader,List.mem_append_left _ h₁,hleader⟩
  · rcases List.mem_cons.mp h₂ with rfl | h₂
    · exact absurd hleader hslot
    · exact ⟨leader,List.mem_append_right _ h₂,hleader⟩

theorem members_newLeader {guid : UInt64} (h : Roster slots)
    (hslot : getMemberSlot slots guid=some slot) :
    Members (updateSlot guid (toggleGroupMemberFlag MEMBER_FLAG_ASSISTANT false) slots)
      slot.guid := by
  obtain ⟨hguid,l₁,l₂,rfl,hupdate,-⟩ := getMemberSlot_split hslot
  rw [hupdate]
  refine ⟨h.toggleAssistant false,⟨_,List.mem_append_right _ List.mem_cons_self,rfl⟩,
    fun other hother hleader => ?_⟩
  have hinj := List.inj_on_of_nodup_map (h.toggleAssistant false).distinct hother
    (List.mem_append_right l₁ List.mem_cons_self) hleader
  rw [hinj]
  exact hasFlag_toggle_false MEMBER_FLAG_ASSISTANT slot

end Slots

section Groups
variable {g : Group} {guid : UInt64}

theorem subgroupSize_congr {slots slots' : List MemberSlot}
    (h : slots'.map MemberSlot.group=slots.map MemberSlot.group)
    (subgroup : Fin MAX_RAID_SUBGROUPS) : subgroupSize slots' subgroup=subgroupSize slots subgroup := by
  have hcount := congrArg (List.countP fun group => group=subgroup) h
  rw [List.countP_map,List.countP_map] at hcount
  exact hcount

theorem Counted.congr {g' : Group} (h : Counted g)
    (hgroups : g'.memberSlots.map MemberSlot.group=g.memberSlots.map MemberSlot.group)
    (hcounts : g'.subGroupsCounts=g.subGroupsCounts) (hraid : isRaidGroup g'=isRaidGroup g) :
    Counted g' := by
  refine ⟨by rw [hcounts,hraid,h.allocated],fun counts heq subgroup => ?_,fun subgroup => ?_,
    fun heq => ?_⟩
  · rw [subgroupSize_congr hgroups]
    exact h.exact counts (hcounts.symm.trans heq) subgroup
  · rw [subgroupSize_congr hgroups]
    exact h.bound subgroup
  have hlength := congrArg List.length hgroups
  rw [List.length_map,List.length_map] at hlength
  rw [hlength]
  exact h.small (hcounts.symm.trans heq)

/-- The counters are made anew. -/
theorem Counted.init {g' : Group} (h : Counted g) (hslots : g'.memberSlots=g.memberSlots)
    (hcounts : g'.subGroupsCounts=some (initRaidSubGroupsCounter g.memberSlots))
    (hraid : isRaidGroup g'=true) : Counted g' := by
  refine ⟨by rw [hcounts,hraid]; rfl,fun counts heq => ?_,fun subgroup => ?_,fun heq => ?_⟩
  · rw [hcounts] at heq
    rw [hslots,←Option.some.inj heq]
    exact counts_init h.bound
  · rw [hslots]
    exact h.bound subgroup
  · rw [hcounts] at heq
    exact absurd heq (Option.some_ne_none _)

/-- Flags and the leader are changed in a way that keeps the members in order. -/
theorem Sound.withSlots (h : Sound g) {slots : List MemberSlot} {leaderGuid : UInt64}
    (hgroups : slots.map MemberSlot.group=g.memberSlots.map MemberSlot.group)
    (hmembers : Members slots leaderGuid) :
    Sound { g with memberSlots := slots, leaderGuid := leaderGuid } :=
  ⟨h.counted.congr hgroups rfl rfl,hmembers,h.icons⟩

theorem sound_insertMember (h : Sound g) {subGroup : Fin MAX_RAID_SUBGROUPS}
    (hnew : ¬IsMember g guid) (hroom : subgroupSize g.memberSlots subGroup < MAXGROUPSIZE)
    (hsmall : g.subGroupsCounts=none → g.memberSlots.length < MAXGROUPSIZE) :
    Sound (insertMember g guid subGroup) := by
  have hperm : (g.memberSlots++[MemberSlot.mk guid subGroup 0]).Perm
      (MemberSlot.mk guid subGroup 0::g.memberSlots) := List.perm_append_singleton _ _
  refine ⟨⟨?_,fun counts heq => ?_,fun subgroup => ?_,fun heq => ?_⟩,
    ⟨⟨?_,fun flag hflag => ?_⟩,?_,fun slot hslot hleader => ?_⟩,fun i j => ?_⟩
  · exact Option.isSome_map.trans h.counted.allocated
  · obtain ⟨before,hbefore,rfl⟩ := Option.map_eq_some_iff.mp heq
    have hcounts : Counts (subGroupCounterIncrease subGroup before)
        (MemberSlot.mk guid subGroup 0::g.memberSlots) :=
      (h.counted.exact before hbefore).increase (MemberSlot.mk guid subGroup 0)
        (hroom.trans (by unfold MAXGROUPSIZE; omega))
    exact hcounts.perm hperm.symm
  · refine (subgroupSize_perm hperm subgroup).trans_le ?_
    rw [subgroupSize_cons]
    split
    · rename_i heq
      rw [←heq]
      exact hroom
    · exact h.counted.bound subgroup
  · refine hperm.length_eq.trans_le ?_
    exact hsmall (Option.map_eq_none_iff.mp heq)
  · refine (hperm.map MemberSlot.guid).nodup_iff.mpr (List.nodup_cons.mpr ⟨fun hmem => ?_,?_⟩)
    · exact hnew (List.mem_map.mp hmem)
    · exact h.members.distinct
  · refine (hperm.countP_eq _).trans_le ?_
    rw [List.countP_cons,if_neg (by simp [hasFlag])]
    exact h.members.single flag hflag
  · obtain ⟨slot,hslot,hleader⟩ := h.members.leader
    exact ⟨slot,List.mem_append_left _ hslot,hleader⟩
  · rcases List.mem_append.mp hslot with hold | hlast
    · exact h.members.plain slot hold hleader
    · rw [List.mem_singleton.mp hlast]
      simp [hasFlag]
  · unfold insertMember
    dsimp only
    split
    · exact h.icons i j
    · exact fun hzero => absurd rfl hzero

theorem sound_addMember (h : Sound g) (hnew : ¬IsMember g guid)
    (hroom : isRaidGroup g ∨ g.memberSlots.length < MAXGROUPSIZE) : Sound (addMember g guid) := by
  unfold addMember
  split
  · rename_i hnone
    have hraid : isRaidGroup g=false := by rw [←h.counted.allocated,hnone]; rfl
    have hlength : g.memberSlots.length < MAXGROUPSIZE :=
      hroom.resolve_left (by rw [hraid]; exact Bool.false_ne_true)
    exact sound_insertMember h hnew (List.countP_le_length.trans_lt hlength) fun _ => hlength
  · rename_i counts hcounts
    split
    · exact h
    rename_i subGroup hfree
    have hfirst := List.find?_some hfree
    rw [decide_eq_true_eq,h.counted.exact counts hcounts] at hfirst
    exact sound_insertMember h hnew hfirst fun hnone =>
      absurd (hcounts.symm.trans hnone) (Option.some_ne_none _)

/-- The group keeps a leader when a member goes. -/
def Succession (w : World) (g : Group) (guid : UInt64) : Prop :=
  (∃ slot∈g.memberSlots,slot.guid≠guid ∧ w.findPlayer slot.guid) ∨
    (linksLeft w g guid).length < linksNeeded g

theorem counted_eraseSlot (h : Counted g) (guid : UInt64) : Counted (eraseSlot g guid) := by
  unfold eraseSlot
  split
  · exact h
  rename_i slot hslot
  obtain ⟨-,l₁,l₂,hslots,-,herase⟩ := getMemberSlot_split hslot
  have hsub : (l₁++l₂).Sublist g.memberSlots := by
    rw [hslots]
    exact (List.sublist_cons_self slot l₂).append_left l₁
  rw [herase]
  refine ⟨Option.isSome_map.trans h.allocated,fun counts heq => ?_,
    fun subgroup => hsub.countP_le.trans (h.bound subgroup),fun heq => ?_⟩
  · obtain ⟨before,hbefore,rfl⟩ := Option.map_eq_some_iff.mp heq
    have hcounts := h.exact before hbefore
    rw [hslots] at hcounts
    exact (hcounts.perm List.perm_middle).decrease
  · exact hsub.length_le.trans (h.small (Option.map_eq_none_iff.mp heq))

theorem memberSlots_eraseSlot (g : Group) (guid : UInt64) :
    (eraseSlot g guid).memberSlots=g.memberSlots.eraseP fun slot => slot.guid=guid := by
  unfold eraseSlot
  split
  · rename_i hnone
    rw [List.eraseP_of_forall_not]
    intro slot hslot
    simpa using getMemberSlot_none hnone slot hslot
  · rfl

theorem sound_changeLeader (hcounted : Counted g) (hroster : Roster g.memberSlots)
    (hicons : ∀ i j,g.targetIcons i≠0 → g.targetIcons i=g.targetIcons j → i=j)
    {w : World} {slot : MemberSlot} (hslot : getMemberSlot g.memberSlots guid=some slot)
    (hfound : w.findPlayer slot.guid) : Sound (changeLeader w g guid) := by
  unfold changeLeader
  rw [hslot]
  dsimp only
  rw [hfound]
  refine ⟨hcounted.congr ?_ rfl rfl,members_newLeader hroster hslot,hicons⟩
  obtain ⟨-,l₁,l₂,hslots,hupdate,-⟩ := getMemberSlot_split hslot
  show (updateSlot guid _ g.memberSlots).map _=g.memberSlots.map _
  rw [hupdate,hslots]
  exact map_modify rfl

theorem eraseSlot_frame (g : Group) (guid : UInt64) :
    (eraseSlot g guid).leaderGuid=g.leaderGuid ∧ (eraseSlot g guid).targetIcons=g.targetIcons ∧
    (eraseSlot g guid).memberMgr=g.memberMgr ∧
    linksNeeded (eraseSlot g guid)=linksNeeded g := by
  unfold eraseSlot
  split <;> exact ⟨rfl,rfl,rfl,rfl⟩

theorem roster_eraseSlot (h : Roster g.memberSlots) (guid : UInt64) :
    Roster (eraseSlot g guid).memberSlots := by
  rw [memberSlots_eraseSlot]
  exact h.sublist List.eraseP_sublist

theorem members_eraseSlot (h : Members g.memberSlots g.leaderGuid) {guid : UInt64}
    (hguid : g.leaderGuid≠guid) :
    Members (eraseSlot g guid).memberSlots (eraseSlot g guid).leaderGuid := by
  unfold eraseSlot
  split
  · exact h
  rename_i slot hslot
  obtain ⟨hslotguid,l₁,l₂,hslots,-,herase⟩ := getMemberSlot_split hslot
  dsimp only
  rw [hslots] at h
  rw [herase]
  exact h.erase fun heq => hguid (heq.symm.trans hslotguid)

theorem exists_getMemberSlot {slots : List MemberSlot} {slot : MemberSlot} (hslot : slot∈slots) :
    ∃ slot',getMemberSlot slots slot.guid=some slot' ∧ slot'.guid=slot.guid := by
  cases h : getMemberSlot slots slot.guid with
  | none => exact absurd rfl (getMemberSlot_none h slot hslot)
  | some slot' => exact ⟨slot',rfl,(getMemberSlot_split h).1⟩

theorem sound_pickLeader (hcounted : Counted g) (hroster : Roster g.memberSlots)
    (hicons : ∀ i j,g.targetIcons i≠0 → g.targetIcons i=g.targetIcons j → i=j)
    (hmembers : g.leaderGuid≠guid → Members g.memberSlots g.leaderGuid) {w : World}
    (hfound : g.leaderGuid=guid → ∃ slot∈g.memberSlots,w.findPlayer slot.guid) :
    Sound (pickLeader w g guid) := by
  unfold pickLeader
  split
  · rename_i hold
    split
    · rename_i hnone
      obtain ⟨slot,hslot,hin⟩ := hfound hold
      exact absurd hin (List.find?_eq_none.mp hnone slot hslot)
    · rename_i slot hslot
      obtain ⟨slot',hslot',hguid'⟩ := exists_getMemberSlot (List.mem_of_find?_eq_some hslot)
      have hin := List.find?_some hslot
      exact sound_changeLeader hcounted hroster hicons hslot' (hguid'.symm ▸ hin)
  · rename_i hother
    exact ⟨hcounted,hmembers hother,hicons⟩

theorem pickLeader_of_not_found {w : World} (h : ∀ slot∈g.memberSlots,¬w.findPlayer slot.guid) :
    pickLeader w g guid=g := by
  unfold pickLeader
  split
  · rw [List.find?_eq_none.mpr h]
  · rfl

theorem sound_removeMember (h : Sound g) {w : World} {method : RemoveMethod} {g' : Group}
    (hsucc : guid=g.leaderGuid → (isLFGGroup g ∧ method=RemoveMethod.kick) ∨
      g.memberSlots.length ≤ membersNeeded g ∨ Succession w g guid)
    (hres : removeMember w g guid method=some g') : Sound g' := by
  unfold removeMember at hres
  split at hres
  · exact Option.some.inj hres ▸ h
  rename_i hkick
  split at hres
  · rename_i hsize
    have hunlinked : Sound { g with memberMgr := linksLeft w g guid } :=
      ⟨h.counted.congr rfl rfl rfl,h.members,h.icons⟩
    obtain ⟨hleader,hicons,hlinks,hneeded⟩ :=
      eraseSlot_frame { g with memberMgr := linksLeft w g guid } guid
    have hpicked := fun w => sound_pickLeader (w := w)
      (counted_eraseSlot hunlinked.counted guid)
      (roster_eraseSlot hunlinked.members.toRoster guid) (by rw [hicons]; exact h.icons)
      (fun hother => members_eraseSlot hunlinked.members fun heq => hother (hleader.trans heq))
    have hslots := memberSlots_eraseSlot { g with memberMgr := linksLeft w g guid } guid
    dsimp only at hres hleader hlinks hslots
    generalize eraseSlot { g with memberMgr := linksLeft w g guid } guid=left at *
    split at hres
    · cases hres
    split at hres
    · cases hres
    rename_i hgoes
    obtain rfl := Option.some.inj hres
    refine hpicked w fun hold => ?_
    rcases hsucc (hold.symm.trans hleader) with hkicked | hsmall | ⟨slot,hslot,hne,hin⟩ | hfew
    · exact absurd hkicked hkick
    · exact absurd hsize (Nat.not_lt.mpr hsmall)
    · rw [hslots]
      exact ⟨slot,(List.mem_eraseP_of_neg (by simpa using hne)).mpr hslot,hin⟩
    -- with too few links the group goes unless somebody has been found
    by_contra hnobody
    rw [pickLeader_of_not_found fun slot hslot hin => hnobody ⟨slot,hslot,hin⟩,hlinks,
      hneeded] at hgoes
    exact hgoes hfew
  · cases hres

theorem sound_changeMembersGroup (h : Sound g) {group : Fin MAX_RAID_SUBGROUPS}
    (hfree : subgroupSize g.memberSlots group < MAXGROUPSIZE) :
    Sound (changeMembersGroup g guid group) := by
  unfold changeMembersGroup
  split
  · exact h
  split
  · exact h
  rename_i slot hslot
  split
  · exact h
  obtain ⟨hguid,l₁,l₂,hslots,hupdate,-⟩ := getMemberSlot_split hslot
  have hcounted := h.counted
  have hmembers := h.members
  rw [hslots] at hmembers
  have hrest : g.memberSlots.Perm (slot::(l₁++l₂)) := by
    rw [hslots]
    exact List.perm_middle
  have hmoved : (updateSlot guid (fun slot => { slot with group := group })
      g.memberSlots).Perm ({ slot with group := group }::(l₁++l₂)) := by
    rw [hupdate]
    exact List.perm_middle
  have hsize : ∀ subgroup,subgroupSize (l₁++l₂) subgroup ≤ subgroupSize g.memberSlots subgroup :=
    fun subgroup => by
      rw [subgroupSize_perm hrest,subgroupSize_cons]
      exact Nat.le_add_right _ _
  refine ⟨⟨?_,fun counts heq => ?_,fun subgroup => ?_,fun heq => ?_⟩,?_,h.icons⟩
  · rw [Option.isSome_map,Option.isSome_map]
    exact hcounted.allocated
  · obtain ⟨increased,hincreased,rfl⟩ := Option.map_eq_some_iff.mp heq
    obtain ⟨before,hbefore,rfl⟩ := Option.map_eq_some_iff.mp hincreased
    have hcounts := ((hcounted.exact before hbefore).perm hrest).increase
      { slot with group := group } (by
        rw [←subgroupSize_perm hrest]
        exact hfree.trans (by unfold MAXGROUPSIZE; omega))
    exact ((hcounts.perm (List.Perm.swap _ _ _)).decrease).perm hmoved.symm
  · refine (subgroupSize_perm hmoved subgroup).trans_le ?_
    rw [subgroupSize_cons]
    split
    · rename_i heq
      rw [←heq]
      exact (Nat.add_le_add_right (hsize group) 1).trans hfree
    · exact (hsize subgroup).trans (hcounted.bound subgroup)
  · have hnone : g.subGroupsCounts=none := by simpa using heq
    have hlength := hmoved.length_eq.trans hrest.length_eq.symm
    exact hlength.trans_le (hcounted.small hnone)
  · show Members (updateSlot guid _ g.memberSlots) g.leaderGuid
    rw [hupdate]
    refine hmembers.modify ⟨?_,fun flag hflag => ?_⟩ rfl fun hleader => ?_
    · rw [map_modify (show MemberSlot.guid { slot with group := group }=slot.guid from rfl)]
      exact hmembers.distinct
    · have hsame : (l₁++{ slot with group := group }::l₂).countP (hasFlag flag)=
          (l₁++slot::l₂).countP (hasFlag flag) := countP_modify rfl
      rw [hsame]
      exact hmembers.single flag hflag
    · exact hmembers.plain slot (List.mem_append_right _ List.mem_cons_self) hleader

theorem sound_handleGroupChangeSubGroup (h : Sound g) (groupNr : UInt8) :
    Sound (handleGroupChangeSubGroup g guid groupNr) := by
  unfold handleGroupChangeSubGroup
  split
  · rename_i hnr
    split
    · exact h
    rename_i hfree
    refine sound_changeMembersGroup h ?_
    cases hcounts : g.subGroupsCounts with
    | none => simp [hasFreeSlotSubGroup,hcounts] at hfree
    | some counts =>
      rw [←h.counted.exact counts hcounts]
      simpa [hasFreeSlotSubGroup,hcounts] using hfree
  · exact h

theorem countP_cleared (flag : UInt8) (slots : List MemberSlot) :
    (slots.map fun slot => if hasFlag flag slot then toggleGroupMemberFlag flag false slot
      else slot).countP (hasFlag flag)=0 := by
  rw [List.countP_map,List.countP_eq_zero]
  intro slot _
  rw [Function.comp_apply]
  split
  · rw [hasFlag_toggle_false]
    exact Bool.false_ne_true
  · assumption

/-- Clearing flags makes no flag stand that did not stand before. -/
theorem hasFlag_of_cleared {flag flag' : UInt8} {slot : MemberSlot}
    (h : hasFlag flag' (toggleGroupMemberFlag flag false slot)) : hasFlag flag' slot := by
  unfold hasFlag toggleGroupMemberFlag at h
  simp only [Bool.false_eq_true,if_false,decide_eq_true_eq] at h
  refine decide_eq_true fun hzero => h ?_
  rw [UInt8.and_assoc,UInt8.and_comm (~~~flag) flag',←UInt8.and_assoc,hzero,UInt8.zero_and]

/-- All slots are changed at once, in their flags only. -/
theorem Sound.mapSlots (h : Sound g) {f : MemberSlot → MemberSlot}
    (hguid : ∀ slot,(f slot).guid=slot.guid) (hgroup : ∀ slot,(f slot).group=slot.group)
    (hflags : ∀ flag,flag=MEMBER_FLAG_MAINTANK ∨ flag=MEMBER_FLAG_MAINASSIST →
      ∀ slot,hasFlag flag (f slot) → hasFlag flag slot)
    (hplain : ∀ slot,slot.guid=g.leaderGuid → hasFlag MEMBER_FLAG_ASSISTANT (f slot) →
      hasFlag MEMBER_FLAG_ASSISTANT slot) : Sound { g with memberSlots := g.memberSlots.map f } := by
  have hguids : (g.memberSlots.map f).map MemberSlot.guid=g.memberSlots.map MemberSlot.guid :=
    List.map_map.trans (List.map_congr_left fun slot _ => hguid slot)
  have hgroups : (g.memberSlots.map f).map MemberSlot.group=g.memberSlots.map MemberSlot.group :=
    List.map_map.trans (List.map_congr_left fun slot _ => hgroup slot)
  refine h.withSlots hgroups ⟨⟨?_,fun flag hflag => ?_⟩,?_,fun slot hslot hleader => ?_⟩
  · rw [hguids]
    exact h.members.distinct
  · rw [List.countP_map]
    exact (List.countP_mono_left fun slot _ => hflags flag hflag slot).trans
      (h.members.single flag hflag)
  · have hmem : g.leaderGuid∈g.memberSlots.map MemberSlot.guid := List.mem_map.mpr h.members.leader
    rw [←hguids] at hmem
    exact List.mem_map.mp hmem
  · obtain ⟨before,hbefore,rfl⟩ := List.mem_map.mp hslot
    have hbeforeguid := (hguid before).symm.trans hleader
    have hbeforeplain := h.members.plain before hbefore hbeforeguid
    refine Bool.eq_false_iff.mpr fun hflag => ?_
    rw [hplain before hbeforeguid hflag] at hbeforeplain
    exact absurd hbeforeplain (by decide)

theorem sound_removeUniqueGroupMemberFlag (h : Sound g) (flag : UInt8) :
    Sound (removeUniqueGroupMemberFlag g flag) := by
  have hle : ∀ flag' slot,hasFlag flag' (if hasFlag flag slot then
      toggleGroupMemberFlag flag false slot else slot) → hasFlag flag' slot := by
    intro flag' slot hflag
    split at hflag
    · exact hasFlag_of_cleared hflag
    · exact hflag
  refine h.mapSlots (fun slot => ?_) (fun slot => ?_) (fun flag' _ => hle flag')
    fun slot _ => hle _ slot
  · split <;> rfl
  · split <;> rfl

theorem sound_setEveryoneAssistant (h : Sound g) (active : Bool) :
    Sound (setEveryoneAssistant g active) := by
  refine h.mapSlots (fun slot => ?_) (fun slot => ?_) (fun flag hflag slot hset => ?_)
    fun slot hleader hset => ?_
  · split <;> rfl
  · split <;> rfl
  · split at hset
    · exact hset
    · rwa [hasFlag_toggle_of_disjoint (by rcases hflag with rfl | rfl <;> decide)] at hset
  · rwa [if_pos hleader] at hset

theorem updateSlot_of_none {slots : List MemberSlot} (h : getMemberSlot slots guid=none)
    (f : MemberSlot → MemberSlot) : updateSlot guid f slots=slots := by
  have hne := getMemberSlot_none h
  induction slots with
  | nil => rfl
  | cons slot slots ih =>
    rw [List.forall_mem_cons] at hne
    rw [updateSlot,if_neg hne.1,ih (List.find?_eq_none.mpr fun other hother => by
      simpa using hne.2 other hother) hne.2]

theorem Sound.toggle (h : Sound g) {flag : UInt8} {apply : Bool}
    (hplain : ∀ slot,slot.guid=guid → slot.guid=g.leaderGuid →
      hasFlag MEMBER_FLAG_ASSISTANT slot=false →
      hasFlag MEMBER_FLAG_ASSISTANT (toggleGroupMemberFlag flag apply slot)=false)
    (hsingle : ∀ flag',flag'=MEMBER_FLAG_MAINTANK ∨ flag'=MEMBER_FLAG_MAINASSIST →
      (flag=flag' ∧ g.memberSlots.countP (hasFlag flag)=0) ∨ flag &&& flag'=0) :
    Sound { g with memberSlots := updateSlot guid (toggleGroupMemberFlag flag apply) g.memberSlots } := by
  cases hslot : getMemberSlot g.memberSlots guid with
  | none =>
    rw [updateSlot_of_none hslot]
    exact h
  | some slot =>
    obtain ⟨hguid,l₁,l₂,hslots,hupdate,-⟩ := getMemberSlot_split hslot
    have hmembers := h.members
    rw [hslots] at hmembers hsingle
    rw [hupdate]
    refine h.withSlots ?_ (hmembers.modify ⟨?_,fun flag' hflag' => ?_⟩ rfl fun hleader => ?_)
    · rw [hslots]
      exact map_modify rfl
    · have hsame : (l₁++toggleGroupMemberFlag flag apply slot::l₂).map MemberSlot.guid=
          (l₁++slot::l₂).map MemberSlot.guid := map_modify rfl
      rw [hsame]
      exact hmembers.distinct
    · rcases hsingle flag' hflag' with ⟨rfl,hnone⟩ | hdisjoint
      · rw [List.countP_append,List.countP_cons] at hnone ⊢
        split <;> omega
      · rw [countP_modify (hasFlag_toggle_of_disjoint hdisjoint apply slot)]
        exact hmembers.single flag' hflag'
    · exact hplain slot hguid hleader
        (hmembers.plain slot (List.mem_append_right _ List.mem_cons_self) hleader)

theorem sound_setGroupMemberFlag (h : Sound g) {apply : Bool} {flag : UInt8}
    (hplain : ¬(isRaidGroup g ∧ guid=g.leaderGuid ∧ apply ∧ flag=MEMBER_FLAG_ASSISTANT)) :
    Sound (setGroupMemberFlag g guid apply flag) := by
  unfold setGroupMemberFlag
  split
  · exact h
  rename_i hraid
  split
  · exact h
  split
  · rename_i hflag
    have hzero : (removeUniqueGroupMemberFlag g flag).memberSlots.countP (hasFlag flag)=0 :=
      countP_cleared flag g.memberSlots
    refine (sound_removeUniqueGroupMemberFlag h flag).toggle (fun slot _ _ hslot => ?_)
      fun flag' hflag' => ?_
    · rw [hasFlag_toggle_of_disjoint (by rcases hflag with rfl | rfl <;> decide)]
      exact hslot
    · rcases hflag with rfl | rfl <;> rcases hflag' with rfl | rfl
      · exact Or.inr (by decide)
      · exact Or.inl ⟨rfl,hzero⟩
      · exact Or.inl ⟨rfl,hzero⟩
      · exact Or.inr (by decide)
  · split
    · rename_i hassistant
      subst hassistant
      refine h.toggle (fun slot hguid hleader _ => ?_) fun flag' hflag' => Or.inr ?_
      · have hfalse : apply=false := Bool.eq_false_iff.mpr fun htrue =>
          hplain ⟨by simpa using hraid,hguid.symm.trans hleader,htrue,rfl⟩
        rw [hfalse]
        exact hasFlag_toggle_false MEMBER_FLAG_ASSISTANT slot
      · rcases hflag' with rfl | rfl <;> decide
    · exact h

theorem sound_setTargetIcon (h : Sound g) (id : UInt8) (targetGuid : UInt64) :
    Sound (setTargetIcon g id targetGuid) := by
  unfold setTargetIcon
  split
  · rename_i hid
    refine ⟨h.counted.congr rfl rfl rfl,h.members,?_⟩
    dsimp only
    generalize (⟨id.toNat,hid⟩ : Fin TARGETICONCOUNT)=k
    generalize hcleaned : (if targetGuid≠0 then
      fun i => if g.targetIcons i=targetGuid then 0 else g.targetIcons i else g.targetIcons)=cleaned
    have hother : ∀ i,cleaned i≠0 → cleaned i=g.targetIcons i ∧ cleaned i≠targetGuid := by
      intro i hi
      subst hcleaned
      split at hi <;> rename_i htarget
      · rw [if_pos htarget]
        dsimp only at hi ⊢
        split at hi <;> rename_i hicon
        · exact absurd rfl hi
        · rw [if_neg hicon]
          exact ⟨rfl,hicon⟩
      · rw [if_neg htarget]
        exact ⟨rfl,fun heq => hi (heq.trans (not_not.mp htarget))⟩
    intro i j hi heq
    by_cases hik : i=k <;> by_cases hjk : j=k
    · exact hik.trans hjk.symm
    · subst hik
      rw [Function.update_self] at hi heq
      rw [Function.update_of_ne hjk] at heq
      exact absurd heq.symm (hother j (heq ▸ hi)).2
    · subst hjk
      rw [Function.update_of_ne hik] at hi heq
      rw [Function.update_self] at heq
      exact absurd heq (hother i hi).2
    · rw [Function.update_of_ne hik] at hi heq
      rw [Function.update_of_ne hjk] at heq
      refine h.icons i j ?_ ?_
      · exact (hother i hi).1 ▸ hi
      · rw [←(hother i hi).1,heq,(hother j (heq ▸ hi)).1]
  · exact h

theorem sound_convertToGroup (h : Sound g) : Sound (convertToGroup g) := by
  unfold convertToGroup
  split
  · exact h
  · rename_i hsize
    exact ⟨⟨by simp [isRaidGroup,GROUPTYPE_NORMAL],fun _ heq => (by cases heq),h.counted.bound,
      fun _ => Nat.not_lt.mp hsize⟩,h.members,h.icons⟩

theorem isRaidGroup_of_eq {g' : Group} (h : g'.groupType &&& GROUPTYPE_RAID=GROUPTYPE_RAID) :
    isRaidGroup g'=true := by
  unfold isRaidGroup
  rw [h]
  decide

theorem sound_convertToRaid (h : Sound g) : Sound (convertToRaid g) :=
  ⟨h.counted.init rfl rfl (isRaidGroup_of_eq (or_and_self _ _)),h.members,h.icons⟩

theorem sound_convertToLFR (h : Sound g) : Sound (convertToLFR g) :=
  ⟨h.counted.init rfl rfl (isRaidGroup_of_eq (or_and_self _ _)),h.members,h.icons⟩

theorem sound_convertToLFG (h : Sound g) : Sound (convertToLFG g) := by
  refine ⟨h.counted.congr rfl rfl ?_,h.members,h.icons⟩
  unfold isRaidGroup convertToLFG
  dsimp only
  rw [or_and_of_disjoint _ (by decide),or_and_of_disjoint _ (by decide)]

end Groups

/-- What an operation has to respect. -/
def Allowed (g : Group) : Op → Prop
  | .addMember guid =>
    ¬IsMember g guid ∧ (isRaidGroup g ∨ g.memberSlots.length < MAXGROUPSIZE)
  | .removeMember w guid method =>
    guid=g.leaderGuid → (isLFGGroup g ∧ method=RemoveMethod.kick) ∨
      g.memberSlots.length ≤ membersNeeded g ∨ Succession w g guid
  | .setGroupMemberFlag guid apply flag =>
    ¬(isRaidGroup g ∧ guid=g.leaderGuid ∧ apply ∧ flag=MEMBER_FLAG_ASSISTANT)
  | _ => True

/-- What an operation on a group that is there has to respect. -/
def Proper (s : Option Group) (op : Op) : Prop := ∀ g,s=some g → Allowed g op

theorem sound_apply {g g' : Group} (h : Sound g) {op : Op} (hallowed : Allowed g op)
    (hres : apply g op=some g') : Sound g' := by
  cases op with
  | addMember guid => exact Option.some.inj hres ▸ sound_addMember h hallowed.1 hallowed.2
  | removeMember w guid method => exact sound_removeMember h hallowed hres
  | changeLeader w guid =>
    obtain rfl := Option.some.inj hres
    cases hslot : getMemberSlot g.memberSlots guid with
    | none =>
      unfold changeLeader
      rw [hslot]
      exact h
    | some slot =>
      cases hfound : w.findPlayer slot.guid with
      | false =>
        unfold changeLeader
        rw [hslot]
        dsimp only
        rw [hfound]
        exact h
      | true => exact sound_changeLeader h.counted h.members.toRoster h.icons hslot hfound
  | convertToLFG => exact Option.some.inj hres ▸ sound_convertToLFG h
  | convertToLFR => exact Option.some.inj hres ▸ sound_convertToLFR h
  | convertToRaid => exact Option.some.inj hres ▸ sound_convertToRaid h
  | convertToGroup => exact Option.some.inj hres ▸ sound_convertToGroup h
  | changeSubGroup guid groupNr =>
    exact Option.some.inj hres ▸ sound_handleGroupChangeSubGroup h groupNr
  | setGroupMemberFlag guid apply flag =>
    exact Option.some.inj hres ▸ sound_setGroupMemberFlag h hallowed
  | removeUniqueGroupMemberFlag flag =>
    exact Option.some.inj hres ▸ sound_removeUniqueGroupMemberFlag h flag
  | setEveryoneAssistant active =>
    exact Option.some.inj hres ▸ sound_setEveryoneAssistant h active
  | setTargetIcon id targetGuid =>
    exact Option.some.inj hres ▸ sound_setTargetIcon h id targetGuid
  | login guid =>
    obtain rfl := Option.some.inj hres
    split
    · exact ⟨h.counted.congr rfl rfl rfl,h.members,h.icons⟩
    · exact h
  | logout guid =>
    obtain rfl := Option.some.inj hres
    exact ⟨h.counted.congr rfl rfl rfl,h.members,h.icons⟩

theorem sound_alone {g : Group} (hslots : g.memberSlots=[⟨g.leaderGuid,0,0⟩])
    (hcounts : (g.subGroupsCounts=none ∧ isRaidGroup g=false) ∨
      (g.subGroupsCounts=some (subGroupCounterIncrease 0 fun _ => 0) ∧ isRaidGroup g=true))
    (hicons : g.targetIcons=fun _ => 0) : Sound g := by
  have hlength : g.memberSlots.length ≤ MAXGROUPSIZE := by
    rw [hslots]
    exact Nat.le_add_left 1 4
  refine ⟨⟨?_,fun counts heq => ?_,fun subgroup => List.countP_le_length.trans hlength,
    fun _ => hlength⟩,⟨⟨?_,fun flag _ => ?_⟩,?_,fun slot hslot _ => ?_⟩,fun i j hi => ?_⟩
  · rcases hcounts with ⟨hc,hr⟩ | ⟨hc,hr⟩ <;> rw [hc,hr] <;> rfl
  · rcases hcounts with ⟨hc,-⟩ | ⟨hc,-⟩
    · exact absurd (hc.symm.trans heq) (Option.some_ne_none counts).symm
    obtain rfl := Option.some.inj (hc.symm.trans heq)
    have hnobody : Counts (fun _ => 0) [] := fun _ => rfl
    rw [hslots]
    exact hnobody.increase ⟨g.leaderGuid,0,0⟩ (Nat.zero_lt_succ _)
  · rw [hslots]
    exact List.nodup_singleton _
  · rw [hslots]
    exact List.countP_le_length
  · rw [hslots]
    exact ⟨_,List.mem_cons_self,rfl⟩
  · rw [hslots] at hslot
    rw [List.mem_singleton.mp hslot]
    simp [hasFlag]
  · rw [hicons] at hi
    exact absurd rfl hi

theorem firstFreeSubgroup_zero : firstFreeSubgroup (fun _ => 0)=some 0 := by decide

theorem sound_addLeader {g : Group} (hslots : g.memberSlots=[])
    (hcounts : (g.subGroupsCounts=none ∧ isRaidGroup g=false) ∨
      (g.subGroupsCounts=some (fun _ => 0) ∧ isRaidGroup g=true))
    (hicons : g.targetIcons=fun _ => 0) : Sound (addMember g g.leaderGuid) := by
  have hslots' : ∀ subGroup,(insertMember g g.leaderGuid subGroup).memberSlots=
      [⟨g.leaderGuid,subGroup,0⟩] := fun subGroup => by
    unfold insertMember
    rw [hslots]
    rfl
  have hicons' : ∀ subGroup,(insertMember g g.leaderGuid subGroup).targetIcons=fun _ => 0 :=
    fun subGroup => by
      unfold insertMember
      rw [hicons]
      exact ite_self _
  unfold addMember
  rcases hcounts with ⟨hc,hr⟩ | ⟨hc,hr⟩
  · rw [hc]
    exact sound_alone (hslots' 0) (Or.inl ⟨congrArg (Option.map _) hc,hr⟩) (hicons' 0)
  rw [hc]
  dsimp only
  rw [firstFreeSubgroup_zero]
  exact sound_alone (hslots' 0) (Or.inr ⟨congrArg (Option.map _) hc,hr⟩) (hicons' 0)

/-- A created group is sound. -/
theorem sound_start (leader : UInt64) (kind : Kind) : Sound (start leader kind) := by
  cases kind with
  | normal | dungeonFinder =>
    refine sound_addLeader rfl (Or.inl ⟨?_,?_⟩) rfl
    all_goals
      simp [isRaidGroup,newGroup,convertToLFG,GROUPTYPE_NORMAL,GROUPTYPE_RAID,GROUPTYPE_LFG,
        GROUPTYPE_LFG_RESTRICTED] <;> decide
  | raidFinder | battleground | battlefield =>
    refine sound_addLeader rfl (Or.inr ⟨?_,?_⟩) rfl
    all_goals
      simp [isRaidGroup,newGroup,convertToLFR,GROUPTYPE_NORMAL,GROUPTYPE_RAID,GROUPTYPE_LFG,
        GROUPTYPE_LFG_RESTRICTED,GROUPTYPE_BG,initRaidSubGroupsCounter] <;> decide

/-- What is there after operations that respect the leader is a sound group. -/
theorem group_membership {leader : UInt64} {kind : Kind} {ops : List Op}
    (h : Meets step Proper (some (start leader kind)) ops) :
    ∀ g,run step (some (start leader kind)) ops=some g → Sound g := by
  refine run_invariant (I := fun s => ∀ g,s=some g → Sound g) (fun s op hs hop g hg => ?_)
    (fun g hg => Option.some.inj hg ▸ sound_start leader kind) h
  obtain ⟨before,hbefore,happly⟩ := Option.bind_eq_some_iff.mp hg
  exact sound_apply (hs before hbefore) (hop before hbefore) happly

/-- A world where some players are found. -/
def found (players : List UInt64) : World :=
  { findPlayer := fun guid => players.contains guid
    isAlive := fun _ => true
    mapId := fun _ => 0
    dungeonMapId := 0 }

/-- Three players make a raid with an assistant, and the leader leaves. -/
def raidOps : List Op :=
  [.addMember 2,.addMember 3,.convertToRaid,.setGroupMemberFlag 2 true MEMBER_FLAG_ASSISTANT,
    .removeMember (found [1,2,3]) 1 .leave]

/-- The raid goes on with a leader that is no assistant. -/
theorem group_membership_raid : Meets step Proper (some (start 1 .normal)) raidOps ∧
    ∃ g,run step (some (start 1 .normal)) raidOps=some g ∧ g.leaderGuid=2 ∧ Sound g := by
  have h : Meets step Proper (some (start 1 .normal)) raidOps := by
    refine ⟨?_,?_,?_,?_,?_,trivial⟩ <;> intro g hg <;> obtain rfl := Option.some.inj hg
    · exact ⟨by decide,Or.inr (by decide)⟩
    · exact ⟨by decide,Or.inr (by decide)⟩
    · trivial
    · exact fun hleader => absurd hleader.2.1 (by decide)
    · exact fun _ => Or.inr (Or.inr (Or.inl ⟨⟨2,0,1⟩,by decide,by decide,by decide⟩))
  exact ⟨h,_,rfl,by decide,group_membership h _ rfl⟩

/-- The leader of a raid gives the assistant flag to itself; and a leader leaves a raid
whose other members are both between two maps, linked but not in the world. -/
theorem leader_not_plain :
    ¬(∀ g,run step (some (start 1 .normal))
      [.addMember 2,.convertToRaid,.setGroupMemberFlag 1 true MEMBER_FLAG_ASSISTANT]=some g →
      Sound g) ∧
    ¬(∀ g,run step (some (start 1 .normal))
      [.addMember 2,.addMember 3,.convertToRaid,.removeMember (found [1]) 1 .leave]=some g →
      Sound g) := by
  refine ⟨fun h => ?_,fun h => ?_⟩
  · have hplain := (h _ rfl).members.plain ⟨1,0,1⟩ (by decide) (by decide)
    revert hplain
    decide
  · have hleader := (h _ rfl).members.leader
    revert hleader
    decide

end Projectnelth.GroupModel
