import Mathlib
import Projectnelth.LfgRoles

/-!
# What the role check decides

The check is right about a map if it is right about the maps with one role less. A
player with several roles is tried without each of them; if none of that works, no
assignment exists, since an assignment uses only one of the roles. Players with one role are
counted against the limits.
-/

namespace Projectnelth.LfgModel

open Role

/-- The role is in the mask. -/
def Takes (mask : UInt8) (r : Role) : Prop := mask&&&r.bit≠0

instance (mask : UInt8) (r : Role) : Decidable (Takes mask r) :=
  inferInstanceAs (Decidable (_≠_))

/-- The masks over the four bits. -/
def masks : List UInt8 := (List.range 16).map UInt8.ofNat

theorem mem_masks {mask : UInt8} (h : mask < 16) : mask∈masks := by
  refine List.mem_map.mpr ⟨mask.toNat,List.mem_range.mpr (UInt8.lt_iff_toNat_lt.mp h),?_⟩
  exact UInt8.ofNat_toNat

theorem mem_roles (r : Role) : r∈[TANK,HEALER,DAMAGE] := by
  cases r <;> simp

theorem takes_iff_of_single {mask : UInt8} {r s : Role} (h : mask < 16)
    (hsingle : mask&&&~~~PLAYER_ROLE_LEADER=r.bit) : Takes mask s ↔ s=r := by
  have hall : ∀ r∈[TANK,HEALER,DAMAGE],∀ s∈[TANK,HEALER,DAMAGE],∀ mask∈masks,
      mask&&&~~~PLAYER_ROLE_LEADER=r.bit → (Takes mask s ↔ s=r) := by
    decide +kernel
  exact hall r (mem_roles r) s (mem_roles s) mask (mem_masks h) hsingle

theorem takes_none {mask : UInt8} {r : Role} (h : mask < 16)
    (hnone : mask&&&~~~PLAYER_ROLE_LEADER=0) : ¬Takes mask r := by
  have hall : ∀ r∈[TANK,HEALER,DAMAGE],∀ mask∈masks,
      mask&&&~~~PLAYER_ROLE_LEADER=0 → ¬Takes mask r := by
    decide +kernel
  exact hall r (mem_roles r) mask (mem_masks h) hnone

/-- The blocks test the mask without the leader. -/
theorem takes_role {mask : UInt8} {r : Role} (h : mask < 16) :
    (mask&&&~~~PLAYER_ROLE_LEADER)&&&r.bit=0 ↔ ¬Takes mask r := by
  have hall : ∀ r∈[TANK,HEALER,DAMAGE],∀ mask∈masks,
      (mask&&&~~~PLAYER_ROLE_LEADER)&&&r.bit=0 ↔ ¬Takes mask r := by
    decide +kernel
  exact hall r (mem_roles r) mask (mem_masks h)

/-- A mask with several roles: none of them is all of it, and besides any role
there is another one. -/
theorem takes_other {mask : UInt8} {r : Role} (h : mask < 16)
    (hsome : mask&&&~~~PLAYER_ROLE_LEADER≠0)
    (hmulti : ∀ s : Role,mask&&&~~~PLAYER_ROLE_LEADER≠s.bit) : ∃ s,s≠r ∧ Takes mask s := by
  have hall : ∀ r∈[TANK,HEALER,DAMAGE],∀ mask∈masks,mask&&&~~~PLAYER_ROLE_LEADER≠0 →
      (mask&&&~~~PLAYER_ROLE_LEADER≠TANK.bit ∧ mask&&&~~~PLAYER_ROLE_LEADER≠HEALER.bit ∧
        mask&&&~~~PLAYER_ROLE_LEADER≠DAMAGE.bit) →
      (TANK≠r ∧ Takes mask TANK) ∨ (HEALER≠r ∧ Takes mask HEALER) ∨
        (DAMAGE≠r ∧ Takes mask DAMAGE) := by
    decide +kernel
  rcases hall r (mem_roles r) mask (mem_masks h) hsome ⟨hmulti TANK,hmulti HEALER,hmulti DAMAGE⟩ with
    hs | hs | hs
  · exact ⟨_,hs⟩
  · exact ⟨_,hs⟩
  · exact ⟨_,hs⟩

theorem takes_sub {mask : UInt8} {r s : Role} (h : mask < 16) (hr : Takes mask r) :
    (Takes (mask-r.bit) s ↔ Takes mask s ∧ s≠r) ∧ mask-r.bit < 16 ∧
      (mask-r.bit)&&&PLAYER_ROLE_LEADER=mask&&&PLAYER_ROLE_LEADER ∧
      roleCount (mask-r.bit) < roleCount mask := by
  have hall : ∀ r∈[TANK,HEALER,DAMAGE],∀ s∈[TANK,HEALER,DAMAGE],∀ mask∈masks,Takes mask r →
      (Takes (mask-r.bit) s ↔ Takes mask s ∧ s≠r) ∧ mask-r.bit < 16 ∧
        (mask-r.bit)&&&PLAYER_ROLE_LEADER=mask&&&PLAYER_ROLE_LEADER ∧
        roleCount (mask-r.bit) < roleCount mask := by
    decide +kernel
  exact hall r (mem_roles r) s (mem_roles s) mask (mem_masks h) hr

theorem single_eq {mask : UInt8} {r : Role} (h : mask < 16)
    (hsingle : mask&&&~~~PLAYER_ROLE_LEADER=r.bit) :
    mask=(mask&&&PLAYER_ROLE_LEADER)|||r.bit := by
  have hall : ∀ r∈[TANK,HEALER,DAMAGE],∀ mask∈masks,mask&&&~~~PLAYER_ROLE_LEADER=r.bit →
      mask=(mask&&&PLAYER_ROLE_LEADER)|||r.bit := by
    decide +kernel
  exact hall r (mem_roles r) mask (mem_masks h) hsingle

/-- One role for each player, from the player's mask, within the limits. -/
structure Chooses (groles : LfgRolesMap) (dungeon : LFGDungeonData) (choice : Guid → Role) :
    Prop where
  takes : ∀ guid∈groles.keys,Takes (groles.roles guid) (choice guid)
  /-- No role is chosen too often. -/
  limit : ∀ r,groles.keys.countP (fun guid => choice guid=r) ≤ (dungeon.required r).toNat

/-- An assignment of roles exists. -/
def Assignable (groles : LfgRolesMap) (dungeon : LFGDungeonData) : Prop :=
  ∃ choice,Chooses groles dungeon choice

/-- The map is reduced to an assignment: each mask is one role and the leader's bit from before. -/
def Reduced (groles : LfgRolesMap) (dungeon : LFGDungeonData) (result : LfgRolesMap) : Prop :=
  result.keys=groles.keys ∧
    ∃ choice,Chooses groles dungeon choice ∧
      (∀ guid∈groles.keys,
        result.roles guid=(groles.roles guid&&&PLAYER_ROLE_LEADER)|||(choice guid).bit) ∧
      ∀ guid∉groles.keys,result.roles guid=groles.roles guid

theorem Reduced.assignable {groles result : LfgRolesMap} {dungeon : LFGDungeonData}
    (h : Reduced groles dungeon result) : Assignable groles dungeon := by
  obtain ⟨-,choice,hchoice,-⟩ := h
  exact ⟨choice,hchoice⟩

/-- The result of the check is right, and without an assignment the map is as it was. -/
structure Decides (groles : LfgRolesMap) (dungeon : LFGDungeonData)
    (result : Bool×LfgRolesMap) : Prop where
  iff : result.1=true ↔ Assignable groles dungeon
  /-- The map is then left with one. -/
  reduced : result.1=true → Reduced groles dungeon result.2
  /-- Otherwise it is untouched. -/
  same : result.1=false → result.2=groles

/-- A map whose masks are over the four bits. -/
def Masked (groles : LfgRolesMap) : Prop := ∀ guid∈groles.keys,groles.roles guid < 16

/-- The map without one of the player's roles. -/
def LfgRolesMap.drop (groles : LfgRolesMap) (it : Guid) (r : Role) : LfgRolesMap :=
  groles.set it (groles.roles it-r.bit)

section

variable {groles : LfgRolesMap} {dungeon : LFGDungeonData} {it : Guid} {r : Role}

theorem drop_roles (groles : LfgRolesMap) (it : Guid) (r : Role) (guid : Guid) :
    (groles.drop it r).roles guid=
      if guid=it then groles.roles it-r.bit else groles.roles guid :=
  Function.update_apply _ _ _ _

/-- The role given back. -/
theorem drop_restore (groles : LfgRolesMap) (it : Guid) (r : Role) :
    (groles.drop it r).set it ((groles.drop it r).roles it+r.bit)=groles := by
  have hroles : Function.update (groles.drop it r).roles it
      ((groles.drop it r).roles it+r.bit)=groles.roles := by
    funext guid
    by_cases hguid : guid=it
    · subst hguid
      rw [Function.update_self,drop_roles,if_pos rfl,UInt8.sub_add_cancel]
    · rw [Function.update_of_ne hguid,drop_roles,if_neg hguid]
  show LfgRolesMap.mk groles.keys groles.sorted _=_
  rw [hroles]

theorem Masked.drop (h : Masked groles) (hit : it∈groles.keys) (hr : Takes (groles.roles it) r) :
    Masked (groles.drop it r) := by
  intro guid hguid
  rw [drop_roles]
  split
  · exact (takes_sub (s := r) (h it hit) hr).2.1
  · exact h guid hguid

/-- There is one role less to try. -/
theorem roleCount_drop (h : Masked groles) (hit : it∈groles.keys)
    (hr : Takes (groles.roles it) r) : (groles.drop it r).roleCount < groles.roleCount := by
  have hlt := (takes_sub (s := r) (h it hit) hr).2.2.2
  refine List.sum_lt_sum _ _ (fun guid _ => ?_) ⟨it,hit,?_⟩
  · rw [drop_roles]
    split
    · rename_i hguid
      rw [hguid]
      exact hlt.le
    · exact le_rfl
  · rw [drop_roles,if_pos rfl]
    exact hlt

/-- A choice for the smaller map is one for the map. -/
theorem Chooses.of_drop (h : Masked groles) (hit : it∈groles.keys)
    (hr : Takes (groles.roles it) r) {choice : Guid → Role}
    (hchoice : Chooses (groles.drop it r) dungeon choice) : Chooses groles dungeon choice := by
  refine ⟨fun guid hguid => ?_,hchoice.limit⟩
  have htakes := hchoice.takes guid hguid
  rw [drop_roles] at htakes
  split at htakes
  · rename_i heq
    rw [heq] at htakes ⊢
    exact ((takes_sub (h it hit) hr).1.mp htakes).1
  · exact htakes

/-- A choice that does not use the role is one for the smaller map. -/
theorem Chooses.drop (h : Masked groles) (hit : it∈groles.keys)
    (hr : Takes (groles.roles it) r) {choice : Guid → Role}
    (hchoice : Chooses groles dungeon choice) (hne : choice it≠r) :
    Chooses (groles.drop it r) dungeon choice := by
  refine ⟨fun guid hguid => ?_,hchoice.limit⟩
  have htakes := hchoice.takes guid hguid
  rw [drop_roles]
  split
  · rename_i heq
    rw [heq] at htakes ⊢
    exact (takes_sub (h it hit) hr).1.mpr ⟨htakes,hne⟩
  · exact htakes

theorem Reduced.of_drop (h : Masked groles) (hit : it∈groles.keys)
    (hr : Takes (groles.roles it) r) {result : LfgRolesMap}
    (hreduced : Reduced (groles.drop it r) dungeon result) : Reduced groles dungeon result := by
  obtain ⟨hkeys,choice,hchoice,hroles,hothers⟩ := hreduced
  refine ⟨hkeys,choice,hchoice.of_drop h hit hr,fun guid hguid => ?_,fun guid hguid => ?_⟩
  · rw [hroles guid hguid,drop_roles]
    split
    · rename_i heq
      rw [heq,(takes_sub (s := r) (h it hit) hr).2.2.1]
    · rfl
  · have hne : guid≠it := by
      rintro rfl
      exact hguid hit
    rw [hothers guid hguid,drop_roles,if_neg hne]

end

/-- The mask that the blocks look at. -/
def LfgRolesMap.role (groles : LfgRolesMap) (guid : Guid) : UInt8 :=
  groles.roles guid&&&~~~PLAYER_ROLE_LEADER

/-- The players behind the loop: those with one role are counted within the limits, and
one with several has shown that there is no assignment. -/
structure Counted (groles : LfgRolesMap) (dungeon : LFGDungeonData) (before : List Guid)
    (counters : Counters) : Prop where
  count : ∀ r,(counters r).toNat=before.countP fun guid => groles.role guid=r.bit
  limit : ∀ r,(counters r).toNat ≤ (dungeon.required r).toNat
  /-- Every player with one role is counted. -/
  full : (∀ guid∈before,∃ r : Role,groles.role guid=r.bit) →
    (counters TANK).toNat+(counters HEALER).toNat+(counters DAMAGE).toNat=before.length
  /-- A player with several is not. -/
  part : (∃ guid∈before,∀ r : Role,groles.role guid≠r.bit) →
    (counters TANK).toNat+(counters HEALER).toNat+(counters DAMAGE).toNat < before.length
  tried : (∃ guid∈before,∀ r : Role,groles.role guid≠r.bit) → ¬Assignable groles dungeon

section

variable {check : LfgRolesMap → Option (Bool×LfgRolesMap)} {groles : LfgRolesMap}
variable {dungeon : LFGDungeonData} {it : Guid} {r : Role} {counters : Counters}
variable {before rest : List Guid}

theorem Role.bit_injective {r s : Role} (h : r.bit=s.bit) : r=s := by
  cases r <;> cases s <;> first | rfl | exact absurd h (by decide)

theorem checkRoles_single (hsingle : groles.role it=r.bit) :
    checkRoles check dungeon it (groles.role it) [DAMAGE,HEALER,TANK] counters groles=
      if (counters r).toUInt32=dungeon.required r then Flow.done false groles
      else Flow.go (Function.update counters r (counters r+1)) groles := by
  rw [hsingle]
  have hskip : ∀ s : Role,s≠r → ∀ counters groles,
      checkRole check dungeon it r.bit s counters groles=Flow.go counters groles := by
    intro s hne counters groles
    unfold checkRole
    rw [if_pos]
    cases r <;> cases s <;> first | exact absurd rfl hne | decide
  have hcount : checkRole check dungeon it r.bit r counters groles=
      if (counters r).toUInt32=dungeon.required r then Flow.done false groles
      else Flow.go (Function.update counters r (counters r+1)) groles := by
    unfold checkRole
    rw [if_neg (by cases r <;> decide),if_neg (not_not.mpr rfl)]
  by_cases hlimit : (counters r).toUInt32=dungeon.required r
  · rw [if_pos hlimit] at hcount ⊢
    cases r with
    | DAMAGE => rw [checkRoles,hcount]
    | HEALER =>
      rw [checkRoles,hskip DAMAGE (by decide)]
      dsimp only
      rw [checkRoles,hcount]
    | TANK =>
      rw [checkRoles,hskip DAMAGE (by decide)]
      dsimp only
      rw [checkRoles,hskip HEALER (by decide)]
      dsimp only
      rw [checkRoles,hcount]
  · rw [if_neg hlimit] at hcount ⊢
    cases r with
    | DAMAGE =>
      rw [checkRoles,hcount]
      dsimp only
      rw [checkRoles,hskip HEALER (by decide)]
      dsimp only
      rw [checkRoles,hskip TANK (by decide)]
      rfl
    | HEALER =>
      rw [checkRoles,hskip DAMAGE (by decide)]
      dsimp only
      rw [checkRoles,hcount]
      dsimp only
      rw [checkRoles,hskip TANK (by decide)]
      rfl
    | TANK =>
      rw [checkRoles,hskip DAMAGE (by decide)]
      dsimp only
      rw [checkRoles,hskip HEALER (by decide)]
      dsimp only
      rw [checkRoles,hcount]
      rfl

/-- The check is right about the maps with one role less. -/
def Smaller (check : LfgRolesMap → Option (Bool×LfgRolesMap)) (groles : LfgRolesMap)
    (dungeon : LFGDungeonData) : Prop :=
  ∀ it∈groles.keys,∀ r,Takes (groles.roles it) r →
    ∃ result,check (groles.drop it r)=some result ∧ Decides (groles.drop it r) dungeon result

/-- The blocks for a player with several roles: an assignment is found without one of
them, or there is none without any of them and the map is as it was. -/
theorem checkRoles_multi (hcheck : Smaller check groles dungeon) (hmasked : Masked groles)
    (hit : it∈groles.keys) (hmulti : ∀ s : Role,groles.role it≠s.bit) (roles : List Role) :
    (∃ result,checkRoles check dungeon it (groles.role it) roles counters groles=
        Flow.done true result ∧ Reduced groles dungeon result) ∨
      (checkRoles check dungeon it (groles.role it) roles counters groles=
          Flow.go counters groles ∧
        ∀ r∈roles,Takes (groles.roles it) r → ¬Assignable (groles.drop it r) dungeon) := by
  induction roles with
  | nil => exact Or.inr ⟨rfl,fun _ hmem => absurd hmem List.not_mem_nil⟩
  | cons r rest ih =>
    rw [checkRoles]
    by_cases htakes : Takes (groles.roles it) r
    · obtain ⟨⟨found,result⟩,hresult,hdecides⟩ := hcheck it hit r htakes
      have hrole : ¬groles.role it &&& r.bit=0 :=
        fun hzero => (takes_role (hmasked it hit)).mp hzero htakes
      have hcall : check (groles.set it (groles.roles it-r.bit))=some (found,result) := hresult
      rw [checkRole_several hrole (hmulti r),hcall]
      cases found with
      | true => exact Or.inl ⟨result,rfl,(hdecides.reduced rfl).of_drop hmasked hit htakes⟩
      | false =>
        have hnone : ¬Assignable (groles.drop it r) dungeon :=
          fun hassignable => Bool.false_ne_true (hdecides.iff.mpr hassignable)
        dsimp only
        rw [show result=groles.drop it r from hdecides.same rfl,drop_restore]
        rcases ih with hfound | ⟨hgo,hrest⟩
        · exact Or.inl hfound
        refine Or.inr ⟨hgo,fun s hs => ?_⟩
        rcases List.mem_cons.mp hs with rfl | hs
        · exact fun _ => hnone
        · exact hrest s hs
    · have hblock : checkRole check dungeon it (groles.role it) r counters groles=
          Flow.go counters groles := by
        unfold checkRole
        exact if_pos ((takes_role (hmasked it hit)).mpr htakes)
      rw [hblock]
      rcases ih with hfound | ⟨hgo,hrest⟩
      · exact Or.inl hfound
      refine Or.inr ⟨hgo,fun s hs => ?_⟩
      rcases List.mem_cons.mp hs with rfl | hs
      · exact fun hyes => absurd hyes htakes
      · exact hrest s hs

/-- An assignment uses one role of a player; without another one it still is an assignment. -/
theorem not_assignable_of_drops (hmasked : Masked groles) (hit : it∈groles.keys)
    (hsome : groles.role it≠0) (hmulti : ∀ s : Role,groles.role it≠s.bit)
    (hnone : ∀ r,Takes (groles.roles it) r → ¬Assignable (groles.drop it r) dungeon) :
    ¬Assignable groles dungeon := by
  rintro ⟨choice,hchoice⟩
  obtain ⟨s,hne,htakes⟩ := @takes_other _ (choice it) (hmasked it hit) hsome hmulti
  exact hnone s htakes ⟨choice,hchoice.drop hmasked hit htakes hne.symm⟩

theorem Counted.nil : Counted groles dungeon [] fun _ => 0 :=
  ⟨fun _ => rfl,fun _ => Nat.zero_le _,fun _ => rfl,
    fun ⟨_,hmem,_⟩ => absurd hmem List.not_mem_nil,
    fun ⟨_,hmem,_⟩ => absurd hmem List.not_mem_nil⟩

/-- A player with several roles goes uncounted. -/
theorem Counted.multi (h : Counted groles dungeon before counters)
    (hmulti : ∀ s : Role,groles.role it≠s.bit) (hnone : ¬Assignable groles dungeon) :
    Counted groles dungeon (before++[it]) counters := by
  have hle : (counters TANK).toNat+(counters HEALER).toNat+(counters DAMAGE).toNat ≤
      before.length := by
    by_cases hall : ∀ guid∈before,∃ r : Role,groles.role guid=r.bit
    · exact (h.full hall).le
    · push Not at hall
      exact (h.part hall).le
  refine ⟨fun r => ?_,h.limit,fun hall => ?_,fun _ => ?_,fun _ => hnone⟩
  · rw [h.count,List.countP_append,List.countP_singleton,if_neg (by simpa using hmulti r)]
    rfl
  · obtain ⟨r,hr⟩ := hall it (List.mem_append_right _ (List.mem_singleton_self it))
    exact absurd hr (hmulti r)
  · rw [List.length_append,List.length_singleton]
    omega

/-- A player with one role is counted, below the limit. -/
theorem Counted.single (h : Counted groles dungeon before counters)
    (hsingle : groles.role it=r.bit) (hless : (counters r).toNat < (dungeon.required r).toNat)
    (hlength : before.length < 255) :
    Counted groles dungeon (before++[it]) (Function.update counters r (counters r+1)) := by
  have hcount : ∀ s,(counters s).toNat ≤ before.length := by
    intro s
    rw [h.count]
    exact List.countP_le_length
  have hself : (counters r+1).toNat=(counters r).toNat+1 := by
    have := hcount r
    rw [UInt8.toNat_add]
    exact Nat.mod_eq_of_lt (by simp only [UInt8.toNat_one]; omega)
  have hsum : (Function.update counters r (counters r+1) TANK).toNat+
      (Function.update counters r (counters r+1) HEALER).toNat+
      (Function.update counters r (counters r+1) DAMAGE).toNat=
      (counters TANK).toNat+(counters HEALER).toNat+(counters DAMAGE).toNat+1 := by
    cases r <;> simp only [Function.update_apply] <;> simp [hself] <;> omega
  have hbefore : (∃ guid∈before++[it],∀ s : Role,groles.role guid≠s.bit) →
      ∃ guid∈before,∀ s : Role,groles.role guid≠s.bit := by
    rintro ⟨guid,hguid,hmulti⟩
    rcases List.mem_append.mp hguid with hguid | hguid
    · exact ⟨guid,hguid,hmulti⟩
    · rw [List.mem_singleton.mp hguid] at hmulti
      exact absurd hsingle (hmulti r)
  refine ⟨fun s => ?_,fun s => ?_,fun hall => ?_,fun hmulti => ?_,
    fun hmulti => h.tried (hbefore hmulti)⟩
  · rw [List.countP_append,List.countP_singleton,← h.count,Function.update_apply]
    by_cases hs : s=r
    · rw [if_pos hs,hs,hself,if_pos (by simpa using hsingle)]
    · have hne : ¬groles.role it=s.bit := fun heq => hs (Role.bit_injective (heq.symm.trans hsingle))
      rw [if_neg hs,if_neg (by simpa using hne)]
      rfl
  · rw [Function.update_apply]
    by_cases hs : s=r
    · rw [if_pos hs,hs,hself]
      exact hless
    · rw [if_neg hs]
      exact h.limit s
  · rw [hsum,List.length_append,List.length_singleton,
      h.full fun guid hguid => hall guid (List.mem_append_left _ hguid)]
  · rw [hsum,List.length_append,List.length_singleton]
    exact Nat.succ_lt_succ (h.part (hbefore hmulti))

/-- The role of a player with one. -/
def onlyRole (mask : UInt8) : Role :=
  if mask&&&~~~PLAYER_ROLE_LEADER=TANK.bit then TANK
  else if mask&&&~~~PLAYER_ROLE_LEADER=HEALER.bit then HEALER
  else DAMAGE

theorem onlyRole_eq {mask : UInt8} (h : mask&&&~~~PLAYER_ROLE_LEADER=r.bit) :
    onlyRole mask=r := by
  unfold onlyRole
  rw [h]
  cases r <;> decide

/-- With one role for everyone and the counters within the limits, the map is an assignment. -/
theorem Counted.reduced (h : Counted groles dungeon groles.keys counters)
    (hmasked : Masked groles) (hall : ∀ guid∈groles.keys,∃ r : Role,groles.role guid=r.bit) :
    Reduced groles dungeon groles := by
  refine ⟨rfl,fun guid => onlyRole (groles.roles guid),⟨fun guid hguid => ?_,fun r => ?_⟩,
    fun guid hguid => ?_,fun _ _ => rfl⟩
  · obtain ⟨r,hr⟩ := hall guid hguid
    rw [onlyRole_eq hr]
    exact (takes_iff_of_single (hmasked guid hguid) hr).mpr rfl
  · refine le_trans ?_ (h.limit r)
    rw [h.count]
    refine List.countP_mono_left fun guid hguid heq => ?_
    obtain ⟨s,hs⟩ := hall guid hguid
    have hrole : onlyRole (groles.roles guid)=r := by simpa using heq
    rw [onlyRole_eq hs] at hrole
    rw [← hrole]
    exact decide_eq_true hs
  · obtain ⟨r,hr⟩ := hall guid hguid
    dsimp only
    rw [onlyRole_eq hr]
    exact single_eq (hmasked guid hguid) hr

/-- A player with a role whose limit is used up by such players leaves no assignment. -/
theorem Counted.not_assignable (h : Counted groles dungeon before counters)
    (hmasked : Masked groles) (hkeys : groles.keys=before++it::rest)
    (hsingle : groles.role it=r.bit) (hfull : (counters r).toNat=(dungeon.required r).toNat) :
    ¬Assignable groles dungeon := by
  rintro ⟨choice,hchoice⟩
  have hforced : (before++[it]).countP (fun guid => groles.role guid=r.bit) ≤
      groles.keys.countP fun guid => choice guid=r := by
    have hpre : (before++[it]).Sublist groles.keys := by
      rw [hkeys,show before++it::rest=(before++[it])++rest from List.append_cons before it rest]
      exact List.sublist_append_left _ _
    refine le_trans (List.countP_mono_left fun guid hguid heq => ?_) hpre.countP_le
    have hmem := hpre.subset hguid
    have htakes := hchoice.takes guid hmem
    have heq : groles.role guid=r.bit := by simpa using heq
    exact decide_eq_true ((takes_iff_of_single (hmasked guid hmem) heq).mp htakes)
  rw [List.countP_append,List.countP_singleton,← h.count,if_pos (by simpa using hsingle)] at hforced
  have := hchoice.limit r
  omega

/-- The loop decides the map; by induction on the players that it has not reached. -/
theorem checkPlayers_decides (hcheck : Smaller check groles dungeon) (hmasked : Masked groles)
    (hlength : groles.keys.length < 256) (hkeys : groles.keys=before++rest)
    (h : Counted groles dungeon before counters) :
    ∃ result,checkPlayers check dungeon rest counters groles=some result ∧
      Decides groles dungeon result := by
  induction rest generalizing before counters with
  | nil =>
    rw [List.append_nil] at hkeys
    rw [← hkeys] at h
    refine ⟨_,rfl,?_⟩
    rw [Nat.mod_eq_of_lt hlength]
    by_cases hall : ∀ guid∈groles.keys,∃ r : Role,groles.role guid=r.bit
    · rw [h.full hall]
      have hreduced := h.reduced hmasked hall
      exact ⟨iff_of_true (decide_eq_true rfl) hreduced.assignable,fun _ => hreduced,
        fun hfalse => absurd rfl (of_decide_eq_false hfalse)⟩
    · push Not at hall
      have hpart := h.part hall
      have hfalse := decide_eq_false hpart.ne
      rw [hfalse]
      exact ⟨iff_of_false Bool.false_ne_true (h.tried hall),(by rintro ⟨⟩),fun _ => rfl⟩
  | cons it rest ih =>
    have hit : it∈groles.keys := by
      rw [hkeys]
      exact List.mem_append_right _ List.mem_cons_self
    have hnext : groles.keys=(before++[it])++rest := by
      rw [hkeys,List.append_assoc]
      rfl
    rw [checkPlayers_cons,← LfgRolesMap.role]
    by_cases hsome : groles.role it=0
    · refine ⟨_,if_pos hsome,⟨iff_of_false Bool.false_ne_true ?_,(by rintro ⟨⟩),fun _ => rfl⟩⟩
      rintro ⟨choice,hchoice⟩
      exact takes_none (hmasked it hit) hsome (hchoice.takes it hit)
    · rw [if_neg hsome]
      by_cases hsingle : ∃ r : Role,groles.role it=r.bit
      · obtain ⟨r,hr⟩ := hsingle
        have hblocks := @checkRoles_single check groles dungeon it r counters hr
        have hlimit : (counters r).toUInt32=dungeon.required r ↔
            (counters r).toNat=(dungeon.required r).toNat := by
          rw [← UInt32.toNat_inj,UInt8.toNat_toUInt32]
        by_cases hfull : (counters r).toNat=(dungeon.required r).toNat
        · rw [if_pos (hlimit.mpr hfull)] at hblocks
          rw [hblocks]
          exact ⟨_,rfl,iff_of_false Bool.false_ne_true (h.not_assignable hmasked hkeys hr hfull),
            (by rintro ⟨⟩),fun _ => rfl⟩
        · rw [if_neg (mt hlimit.mp hfull)] at hblocks
          rw [hblocks]
          refine ih hnext (h.single hr (lt_of_le_of_ne (h.limit r) hfull) ?_)
          rw [hkeys,List.length_append,List.length_cons] at hlength
          omega
      · have hmulti : ∀ s : Role,groles.role it≠s.bit := fun s hs => hsingle ⟨s,hs⟩
        have hblocks := @checkRoles_multi check groles dungeon it counters hcheck hmasked hit hmulti
          [DAMAGE,HEALER,TANK]
        rcases hblocks with ⟨result,hdone,hreduced⟩ | ⟨hgo,hnone⟩
        · rw [hdone]
          exact ⟨_,rfl,iff_of_true rfl hreduced.assignable,fun _ => hreduced,(by rintro ⟨⟩)⟩
        rw [hgo]
        refine ih hnext (h.multi hmulti (not_assignable_of_drops hmasked hit hsome hmulti ?_))
        intro r
        exact hnone r (by cases r <;> decide)

end

theorem checkGroupRoles_decides {dungeon : LFGDungeonData} {fuel : ℕ} {groles : LfgRolesMap}
    (hmasked : Masked groles) (hlength : groles.keys.length < 256) (hkeys : groles.keys≠[])
    (hfuel : groles.roleCount < fuel) :
    ∃ result,checkGroupRoles dungeon fuel groles=some result ∧ Decides groles dungeon result := by
  induction fuel generalizing groles with
  | zero => exact absurd hfuel (Nat.not_lt_zero _)
  | succ fuel ih =>
    rw [checkGroupRoles,if_neg hkeys]
    refine checkPlayers_decides (fun it hit r hr => ?_) hmasked hlength
      (show groles.keys=[]++groles.keys from rfl) Counted.nil
    have hless := roleCount_drop hmasked hit hr
    exact ih (hmasked.drop hit hr) hlength hkeys (by omega)

/-- What a check that ends says of the masks: it passes only those over the four bits, and gives back
the map that it does not pass. -/
def Sound (groles : LfgRolesMap) : Option (Bool×LfgRolesMap) → Prop
  | none => True
  | some (true,_) => Masked groles
  | some (false,result) => result=groles

/-- The same of a part of the check that leaves the counters alone. -/
def SoundPart (groles : LfgRolesMap) (counters : Counters) : Flow → Prop
  | Flow.exhausted => True
  | Flow.done true _ => Masked groles
  | Flow.done false result => result=groles
  | Flow.go others result => others=counters ∧ result=groles

theorem lt_of_single {mask : UInt8} {r : Role} (h : mask&&&~~~PLAYER_ROLE_LEADER=r.bit) :
    mask < 16 := by
  have hall : ∀ r∈[TANK,HEALER,DAMAGE],∀ n : Fin 256,
      UInt8.ofNat n&&&~~~PLAYER_ROLE_LEADER=r.bit → UInt8.ofNat n < 16 := by
    decide +kernel
  have hmask := hall r (mem_roles r) ⟨mask.toNat,mask.toNat_lt⟩
  rw [UInt8.ofNat_toNat] at hmask
  exact hmask h

/-- A mask is over the four bits if it is so without one of its roles. -/
theorem lt_of_sub_lt {mask : UInt8} {r : Role} (hr : Takes mask r) (h : mask-r.bit < 16) :
    mask < 16 := by
  have hall : ∀ r∈[TANK,HEALER,DAMAGE],∀ n : Fin 256,Takes (UInt8.ofNat n) r →
      UInt8.ofNat n-r.bit < 16 → UInt8.ofNat n < 16 := by
    decide +kernel
  have hmask := hall r (mem_roles r) ⟨mask.toNat,mask.toNat_lt⟩
  rw [UInt8.ofNat_toNat] at hmask
  exact hmask hr h

section

variable {check : LfgRolesMap → Option (Bool×LfgRolesMap)} {groles : LfgRolesMap}
variable {dungeon : LFGDungeonData} {it : Guid} {r : Role} {counters : Counters}
variable {before rest : List Guid}

theorem Masked.of_drop (hr : Takes (groles.roles it) r) (h : Masked (groles.drop it r)) :
    Masked groles := by
  intro guid hguid
  have hmask := h guid hguid
  rw [drop_roles] at hmask
  split at hmask
  · rename_i heq
    rw [heq]
    exact lt_of_sub_lt hr hmask
  · exact hmask

/-- The blocks for a player with several roles, or with bits that are no roles. -/
theorem checkRoles_sound (hcheck : ∀ r,Sound (groles.drop it r) (check (groles.drop it r)))
    (hmulti : ∀ s : Role,groles.role it≠s.bit) (roles : List Role) :
    SoundPart groles counters
      (checkRoles check dungeon it (groles.role it) roles counters groles) := by
  induction roles with
  | nil => exact ⟨rfl,rfl⟩
  | cons r rest ih =>
    rw [checkRoles]
    by_cases hskip : groles.role it&&&r.bit=0
    · have hblock : checkRole check dungeon it (groles.role it) r counters groles=
          Flow.go counters groles := by
        unfold checkRole
        exact if_pos hskip
      rw [hblock]
      exact ih
    · have htakes : Takes (groles.roles it) r := by
        intro hzero
        refine hskip ?_
        rw [LfgRolesMap.role,UInt8.and_assoc,UInt8.and_comm (~~~PLAYER_ROLE_LEADER),
          ← UInt8.and_assoc,hzero,UInt8.zero_and]
      have hsmaller : Sound (groles.drop it r) (check (groles.set it (groles.roles it-r.bit))) :=
        hcheck r
      rw [checkRole_several hskip (hmulti r)]
      generalize check (groles.set it (groles.roles it-r.bit))=smaller at hsmaller ⊢
      rcases smaller with _ | ⟨_ | _,result⟩
      · trivial
      · rw [show result=groles.drop it r from hsmaller]
        dsimp only
        rw [drop_restore]
        exact ih
      · exact Masked.of_drop htakes hsmaller

/-- The counters behind the loop: they reach the number of the players only if each
of them has one role. -/
theorem checkPlayers_sound
    (hcheck : ∀ it∈groles.keys,∀ r,Sound (groles.drop it r) (check (groles.drop it r)))
    (hlength : groles.keys.length < 256) (hkeys : groles.keys=before++rest)
    (hle : (counters TANK).toNat+(counters HEALER).toNat+(counters DAMAGE).toNat ≤ before.length)
    (hfull : (counters TANK).toNat+(counters HEALER).toNat+(counters DAMAGE).toNat=before.length →
      ∀ guid∈before,∃ r : Role,groles.role guid=r.bit) :
    Sound groles (checkPlayers check dungeon rest counters groles) := by
  induction rest generalizing before counters with
  | nil =>
    rw [List.append_nil] at hkeys
    rw [checkPlayers,Nat.mod_eq_of_lt hlength,hkeys]
    by_cases hall : (counters TANK).toNat+(counters HEALER).toNat+(counters DAMAGE).toNat=
        before.length
    · rw [decide_eq_true hall]
      intro guid hguid
      rw [hkeys] at hguid
      obtain ⟨r,hr⟩ := hfull hall guid hguid
      exact lt_of_single hr
    · rw [decide_eq_false hall]
      rfl
  | cons it rest ih =>
    have hit : it∈groles.keys := by
      rw [hkeys]
      exact List.mem_append_right _ List.mem_cons_self
    have hnext : groles.keys=(before++[it])++rest := by
      rw [hkeys,List.append_assoc]
      rfl
    have hlonger : (before++[it]).length=before.length+1 := List.length_append
    rw [checkPlayers_cons,← LfgRolesMap.role]
    by_cases hsome : groles.role it=0
    · rw [if_pos hsome]
      rfl
    rw [if_neg hsome]
    by_cases hsingle : ∃ r : Role,groles.role it=r.bit
    · obtain ⟨r,hr⟩ := hsingle
      rw [checkRoles_single hr]
      split_ifs with hlimit
      · rfl
      have hone : (counters r+1).toNat ≤ (counters r).toNat+1 := by
        rw [UInt8.toNat_add]
        exact Nat.mod_le _ _
      have hsum : (Function.update counters r (counters r+1) TANK).toNat+
          (Function.update counters r (counters r+1) HEALER).toNat+
          (Function.update counters r (counters r+1) DAMAGE).toNat ≤
          (counters TANK).toNat+(counters HEALER).toNat+(counters DAMAGE).toNat+1 := by
        cases r <;> simp only [Function.update_apply] <;> simp <;> omega
      refine ih hnext (by omega) fun heq guid hguid => ?_
      rcases List.mem_append.mp hguid with hguid | hguid
      · exact hfull (by omega) guid hguid
      · rw [List.mem_singleton.mp hguid]
        exact ⟨r,hr⟩
    · have hmulti : ∀ s : Role,groles.role it≠s.bit := fun s hs => hsingle ⟨s,hs⟩
      have hblocks := @checkRoles_sound check groles dungeon it counters (hcheck it hit) hmulti
        [DAMAGE,HEALER,TANK]
      generalize checkRoles check dungeon it (groles.role it) [DAMAGE,HEALER,TANK] counters groles=
        blocks at hblocks ⊢
      rcases blocks with _ | ⟨_ | _,result⟩ | ⟨others,result⟩
      · trivial
      · exact hblocks
      · exact hblocks
      · obtain ⟨rfl,rfl⟩ := hblocks
        refine ih hnext (by omega) fun heq => ?_
        omega

end

/-- The check passes only masks over the four bits; by induction on the fuel. -/
theorem checkGroupRoles_sound (dungeon : LFGDungeonData) (fuel : ℕ) {groles : LfgRolesMap}
    (hlength : groles.keys.length < 256) : Sound groles (checkGroupRoles dungeon fuel groles) := by
  induction fuel generalizing groles with
  | zero => trivial
  | succ fuel ih =>
    rw [checkGroupRoles]
    split_ifs with hkeys
    · rfl
    refine checkPlayers_sound (fun it _ r => ih ?_) hlength
      (show groles.keys=[]++groles.keys from rfl) le_rfl fun _ guid hguid => ?_
    · exact hlength
    · exact absurd hguid List.not_mem_nil

/-- The check passes the maps with masks over the four bits that have an assignment. -/
theorem CheckGroupRoles_iff {groles : LfgRolesMap} {dungeon : LFGDungeonData}
    (hkeys : groles.keys≠[]) (hlength : groles.keys.length < 256) :
    (CheckGroupRoles groles dungeon).1=true ↔ Masked groles ∧ Assignable groles dungeon := by
  have hsound := checkGroupRoles_sound dungeon (groles.roleCount+1) hlength
  by_cases hmasked : Masked groles
  · obtain ⟨result,hresult,hdecides⟩ :=
      checkGroupRoles_decides hmasked hlength hkeys (Nat.lt_succ_self groles.roleCount)
    rw [CheckGroupRoles,hresult,and_iff_right hmasked]
    exact hdecides.iff
  · refine iff_of_false (fun hpass => hmasked ?_) fun hand => hmasked hand.1
    rw [CheckGroupRoles] at hpass
    generalize checkGroupRoles dungeon (groles.roleCount+1) groles=checked at hpass hsound
    rcases checked with _ | ⟨_ | _,result⟩
    · cases hpass
    · cases hpass
    · exact hsound

/-- `CheckGroupRoles` ends, says whether an assignment exists, and leaves one in the map or the map
as it was. -/
theorem CheckGroupRoles_decides (groles : LfgRolesMap) (dungeon : LFGDungeonData)
    (hkeys : groles.keys≠[]) (hlength : groles.keys.length < 256) (hmasked : Masked groles) :
    checkGroupRoles dungeon (groles.roleCount+1) groles=some (CheckGroupRoles groles dungeon) ∧
      Decides groles dungeon (CheckGroupRoles groles dungeon) := by
  obtain ⟨result,hresult,hdecides⟩ :=
    checkGroupRoles_decides hmasked hlength hkeys (Nat.lt_succ_self groles.roleCount)
  have heq : CheckGroupRoles groles dungeon=result := by
    unfold CheckGroupRoles
    rw [hresult]
    rfl
  rw [heq]
  exact ⟨hresult,hdecides⟩

/-- A leader who tanks or heals, a tank, and one who heals or deals damage. -/
def threeRoles : LfgRolesMap where
  keys := [1,2,3]
  sorted := by decide
  roles := fun guid => if guid=1 then 0x07 else if guid=2 then 0x02 else 0x0C

/-- One of each role is needed, and the leader has to heal. -/
theorem CheckGroupRoles_decides_three :
    Decides threeRoles ⟨1,1,1⟩ (CheckGroupRoles threeRoles ⟨1,1,1⟩) ∧
      (CheckGroupRoles threeRoles ⟨1,1,1⟩).2.roles 1=0x05 :=
  ⟨(CheckGroupRoles_decides threeRoles ⟨1,1,1⟩ (by decide) (by decide)
    (by unfold Masked; decide)).2,by decide⟩

end Projectnelth.LfgModel
