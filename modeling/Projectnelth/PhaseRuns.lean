import Mathlib
import Projectnelth.PhaseModel
import Projectnelth.RunInvariant

/-!
# Phasing over whole runs

What the manager has of a spell is what each registered effect of the spell contributes, as long as
no effect of the same spell differs from it and removing one does not take the place of another.
The masks, what is sent and what is left at the end follow from that.
-/

namespace Projectnelth.PhaseModel

open OrderedMap RunInvariant

variable {store : ℕ → Option SpellPhaseInfo} {d : PhaseData} {m : PhaseMgr} {w : World}
variable {e : AuraEffect} {info : PhaseInfo}

/-! ## Loops -/

theorem mem_collect {α : Type} {f : α → ℕ} {l : List α} {s : Finset ℕ} {x : ℕ} :
    x∈collect f l s ↔ x∈s ∨ x≠0 ∧ ∃ a∈l,f a=x := by
  induction l generalizing s with
  | nil => simp [collect]
  | cons a l ih =>
    unfold collect at ih ⊢
    rw [List.foldl_cons,ih]
    by_cases hzero : f a=0
    · simp only [hzero,ne_eq,not_true_eq_false,if_false,List.mem_cons,exists_eq_or_imp]
      constructor
      · rintro (hs | ⟨hx,hrest⟩)
        · exact Or.inl hs
        · exact Or.inr ⟨hx,Or.inr hrest⟩
      · rintro (hs | ⟨hx,heq | hrest⟩)
        · exact Or.inl hs
        · exact absurd heq.symm hx
        · exact Or.inr ⟨hx,hrest⟩
    · simp only [ne_eq,hzero,not_false_eq_true,if_true,Finset.mem_insert,List.mem_cons,
        exists_eq_or_imp]
      constructor
      · rintro ((rfl | hs) | ⟨hx,hrest⟩)
        · exact Or.inr ⟨hzero,Or.inl rfl⟩
        · exact Or.inl hs
        · exact Or.inr ⟨hx,Or.inr hrest⟩
      · rintro (hs | ⟨hx,heq | hrest⟩)
        · exact Or.inl (Or.inr hs)
        · exact Or.inl (Or.inl heq.symm)
        · exact Or.inr ⟨hx,hrest⟩

theorem testBit_foldl_or (masks : List ℕ) (mask i : ℕ) :
    (masks.foldl (fun mask m => mask ||| m) mask).testBit i=true ↔
      mask.testBit i=true ∨ ∃ m∈masks,m.testBit i=true := by
  induction masks generalizing mask with
  | nil => simp
  | cons a masks ih =>
    simp only [List.foldl_cons,ih,Nat.testBit_or,Bool.or_eq_true,or_assoc,List.mem_cons,
      exists_eq_or_imp]

/-- A bit is set in the masks together exactly if it is in one of them. -/
theorem testBit_orAll (masks : List ℕ) (i : ℕ) :
    (orAll masks).testBit i=true ↔ ∃ m∈masks,m.testBit i=true := by
  unfold orAll
  rw [testBit_foldl_or]
  simp

/-! ## The invariant -/

/-- What the manager has of the spells is what their effects contribute. -/
structure Tracked (store : ℕ → Option SpellPhaseInfo) (d : PhaseData)
    (registered : List AuraEffect) : Prop where
  /-- The entries have different spells. -/
  sorted : Sorted d.spellPhaseInfo
  entry : ∀ e∈registered,index e.id d.spellPhaseInfo=phaseInfoOf store e
  /-- Without effects a spell has an empty entry, or none. -/
  empty : ∀ spellId,(∀ e∈registered,e.id≠spellId) → index spellId d.spellPhaseInfo=default
  mask : d.phasemaskThroughAuras=
    orAll (registered.map fun e => (phaseInfoOf store e).phasemask)

/-- Entries and effects contribute the same, but for empty entries. -/
theorem Tracked.exists_entry_iff {l : List (ℕ×PhaseInfo)} {registered : List AuraEffect}
    (hsorted : Sorted l) (hentry : ∀ e∈registered,index e.id l=phaseInfoOf store e)
    (hempty : ∀ spellId,(∀ e∈registered,e.id≠spellId) → index spellId l=default)
    {p : PhaseInfo → Prop} (hp : ¬p default) :
    (∃ entry∈l,p entry.2) ↔ ∃ e∈registered,p (phaseInfoOf store e) := by
  constructor
  · rintro ⟨entry,hmem,hpe⟩
    have hfind := hsorted.find_of_mem hmem
    have hindex : index entry.1 l=entry.2 := by
      unfold index
      rw [hfind,Option.getD_some]
    by_contra hnone
    push Not at hnone
    refine hp ?_
    rw [← hempty entry.1 fun e he heq => hnone e he ?_]
    · rwa [hindex]
    · rw [← hentry e he,heq,hindex]
      exact hpe
  · rintro ⟨e,he,hpe⟩
    rw [← hentry e he] at hpe
    unfold index at hpe
    cases hfind : find e.id l with
    | none =>
      rw [hfind] at hpe
      exact absurd hpe hp
    | some info =>
      rw [hfind] at hpe
      exact ⟨(e.id,info),mem_of_find hfind,hpe⟩

theorem Tracked.exists_iff {registered : List AuraEffect} (h : Tracked store d registered)
    {p : PhaseInfo → Prop} (hp : ¬p default) :
    (∃ entry∈d.spellPhaseInfo,p entry.2) ↔ ∃ e∈registered,p (phaseInfoOf store e) :=
  exists_entry_iff h.sorted h.entry h.empty hp

theorem orAll_entries {l : List (ℕ×PhaseInfo)} {registered : List AuraEffect}
    (hsorted : Sorted l) (hentry : ∀ e∈registered,index e.id l=phaseInfoOf store e)
    (hempty : ∀ spellId,(∀ e∈registered,e.id≠spellId) → index spellId l=default) :
    orAll (l.map fun entry => entry.2.phasemask)=
      orAll (registered.map fun e => (phaseInfoOf store e).phasemask) := by
  refine Nat.eq_of_testBit_eq fun i => ?_
  rw [Bool.eq_iff_iff,testBit_orAll,testBit_orAll]
  have hiff := Tracked.exists_entry_iff hsorted hentry hempty
    (p := fun info => info.phasemask.testBit i=true) (by simp [default])
  simpa using hiff

/-- The numbers that are sent are those of the effects and of the active definitions. -/
theorem Tracked.mem_collected {registered : List AuraEffect} (h : Tracked store d registered)
    (f : PhaseInfo → ℕ) (g : PhaseDefinition → ℕ) (hf : f default=0) (x : ℕ) :
    x∈collect g d.activePhaseDefinitions (collect (fun entry => f entry.2) d.spellPhaseInfo ∅) ↔
      x≠0 ∧ ((∃ e∈registered,f (phaseInfoOf store e)=x) ∨
        ∃ phase∈d.activePhaseDefinitions,g phase=x) := by
  rw [mem_collect,mem_collect]
  by_cases hx : x=0
  · simp [hx]
  · have hiff := h.exists_iff (p := fun info => f info=x) (by rw [hf]; exact fun h => hx h.symm)
    rw [hiff]
    simp [hx]

/-! ## One step -/

/-- What is asked of a step: an effect contributes what the registered effects of its spell do. One
is removed that is registered: if it has a mask, as the last of its spell, and otherwise as the last
one only if it contributes nothing. -/
def Allowed (store : ℕ → Option SpellPhaseInfo) (w : World) : Action → Prop
  | .register e => ∀ other∈w.registered,other.id=e.id → phaseInfoOf store other=phaseInfoOf store e
  | .unRegister e => e∈w.registered ∧
    if (phaseInfoOf store e).phasemask≠0 then ∀ other∈w.registered.erase e,other.id≠e.id
    else phaseInfoOf store e=default ∨ ∃ other∈w.registered.erase e,other.id=e.id

instance (store : ℕ → Option SpellPhaseInfo) (w : World) (a : Action) :
    Decidable (Allowed store w a) := by
  cases a <;> unfold Allowed <;> infer_instance

theorem index_write (k k' : ℕ) (l : List (ℕ×PhaseInfo)) :
    index k' (write k info l)=if k=k' then info else index k' l := by
  unfold index
  rw [find_write]
  split <;> rfl

theorem index_remove (k k' : ℕ) (l : List (ℕ×PhaseInfo)) :
    index k' (KeyedList.remove Prod.fst k l)=if k'=k then default else index k' l := by
  unfold index
  rw [find_remove]
  split <;> rfl

theorem orAll_cons (mask : ℕ) (masks : List ℕ) : orAll (mask::masks)=orAll masks ||| mask := by
  refine Nat.eq_of_testBit_eq fun i => ?_
  rw [Bool.eq_iff_iff,Nat.testBit_or,Bool.or_eq_true,testBit_orAll,testBit_orAll,or_comm]
  simp only [List.mem_cons,exists_eq_or_imp]

theorem Tracked.register {registered : List AuraEffect} (h : Tracked store d registered)
    (hsame : ∀ other∈registered,other.id=e.id → phaseInfoOf store other=phaseInfoOf store e) :
    Tracked store (d.addAuraInfo e.id (phaseInfoOf store e)) (e::registered) := by
  constructor
  · exact h.sorted.write ..
  · intro other hother
    unfold PhaseData.addAuraInfo
    dsimp only
    rw [index_write]
    rcases List.mem_cons.mp hother with rfl | hother
    · exact if_pos rfl
    split
    · rename_i hid
      exact (hsame other hother hid.symm).symm
    · exact h.entry other hother
  · intro spellId hnone
    unfold PhaseData.addAuraInfo
    dsimp only
    rw [index_write,if_neg (hnone e List.mem_cons_self)]
    exact h.empty spellId fun other hother => hnone other (List.mem_cons_of_mem e hother)
  · rw [List.map_cons,orAll_cons,← h.mask]
    unfold PhaseData.addAuraInfo
    dsimp only
    split
    · rfl
    · rename_i hzero
      rw [not_not.mp hzero,Nat.or_zero]

theorem Tracked.find_eq {registered : List AuraEffect} (h : Tracked store d registered)
    (he : e∈registered) (hinfo : phaseInfoOf store e≠default) :
    find e.id d.spellPhaseInfo=some (phaseInfoOf store e) := by
  have hentry := h.entry e he
  unfold index at hentry
  cases hfind : find e.id d.spellPhaseInfo with
  | none =>
    rw [hfind] at hentry
    exact absurd hentry.symm hinfo
  | some info =>
    rw [hfind] at hentry
    exact congrArg some hentry

theorem Tracked.unRegister {registered : List AuraEffect} (h : Tracked store d registered)
    (he : e∈registered)
    (hlast : if (phaseInfoOf store e).phasemask≠0 then ∀ other∈registered.erase e,other.id≠e.id
      else phaseInfoOf store e=default ∨ ∃ other∈registered.erase e,other.id=e.id) :
    Tracked store (d.removeAuraInfo e.id).1 (registered.erase e) ∧
      (d.removeAuraInfo e.id).2=
        flagIf (phaseInfoOf store e).needsClientSideUpdate CLIENTSIDE_CHANGED |||
          flagIf (phaseInfoOf store e).needsServerSideUpdate SERVERSIDE_CHANGED := by
  have hkept : ∀ other∈registered.erase e,other∈registered := fun _ => List.mem_of_mem_erase
  split at hlast
  · rename_i hmask
    have hne : phaseInfoOf store e≠default := by
      intro hdefault
      rw [hdefault] at hmask
      exact hmask rfl
    have hserver : (phaseInfoOf store e).needsServerSideUpdate=true := decide_eq_true hmask
    unfold PhaseData.removeAuraInfo
    rw [h.find_eq he hne]
    dsimp only
    rw [if_pos hserver,hserver]
    have hsorted : Sorted (KeyedList.remove Prod.fst e.id d.spellPhaseInfo) := h.sorted.filter _
    have hentry : ∀ other∈registered.erase e,
        index other.id (KeyedList.remove Prod.fst e.id d.spellPhaseInfo)=
          phaseInfoOf store other := by
      intro other hother
      rw [index_remove,if_neg (hlast other hother)]
      exact h.entry other (hkept other hother)
    have hempty : ∀ spellId,(∀ other∈registered.erase e,other.id≠spellId) →
        index spellId (KeyedList.remove Prod.fst e.id d.spellPhaseInfo)=default := by
      intro spellId hnone
      rw [index_remove]
      split
      · rfl
      rename_i hother
      refine h.empty spellId fun other hmem heq => ?_
      rcases eq_or_ne other e with rfl | hdiff
      · exact hother heq.symm
      · exact hnone other ((List.mem_erase_of_ne hdiff).mpr hmem) heq
    exact ⟨⟨hsorted,hentry,hempty,orAll_entries hsorted hentry hempty⟩,rfl⟩
  · rename_i hmask
    have hzero : (phaseInfoOf store e).phasemask=0 := not_not.mp hmask
    have hserver : (phaseInfoOf store e).needsServerSideUpdate=false := decide_eq_false hmask
    have hresult : d.removeAuraInfo e.id=
        (d,flagIf (phaseInfoOf store e).needsClientSideUpdate CLIENTSIDE_CHANGED) := by
      have hentry := h.entry e he
      unfold index at hentry
      unfold PhaseData.removeAuraInfo
      cases hfind : find e.id d.spellPhaseInfo with
      | none =>
        rw [hfind] at hentry
        rw [← hentry]
        rfl
      | some info =>
        rw [hfind,Option.getD_some] at hentry
        subst hentry
        dsimp only
        rw [hserver]
        rfl
    rw [hresult,hserver]
    refine ⟨⟨h.sorted,fun other hother => h.entry other (hkept other hother),?_,?_⟩,by simp [flagIf]⟩
    · intro spellId hnone
      by_cases hid : e.id=spellId
      · rcases hlast with hdefault | ⟨other,hother,heq⟩
        · rw [← hid,h.entry e he,hdefault]
        · exact absurd (heq.trans hid) (hnone other hother)
      · refine h.empty spellId fun other hmem heq => ?_
        rcases eq_or_ne other e with rfl | hdiff
        · exact hid heq
        · exact hnone other ((List.mem_erase_of_ne hdiff).mpr hmem) heq
    · -- without a mask the effect is missed in none
      rw [h.mask]
      refine Nat.eq_of_testBit_eq fun i => ?_
      rw [Bool.eq_iff_iff,testBit_orAll,testBit_orAll]
      simp only [List.mem_map,exists_exists_and_eq_and]
      constructor
      · rintro ⟨other,hother,hbit⟩
        rcases eq_or_ne other e with rfl | hdiff
        · rw [hzero,Nat.zero_testBit] at hbit
          cases hbit
        · exact ⟨other,(List.mem_erase_of_ne hdiff).mpr hother,hbit⟩
      · rintro ⟨other,hother,hbit⟩
        exact ⟨other,hkept other hother,hbit⟩

/-! ## Updates -/

theorem no_flags_or (flags : BitVec 8) : 0 ||| flags=flags := BitVec.zero_or

theorem update_eq (player : Player) (d : PhaseData) (client server : Bool) :
    PhaseMgr.update ⟨player,d,flagIf client CLIENTSIDE_CHANGED ||| flagIf server SERVERSIDE_CHANGED⟩=
      (⟨if server then {player with phaseMask := d.getCurrentPhasemask player} else player,d,0⟩,
        (if client then [.phaseshift d.phaseIds d.terrainswaps] else [])++
          if server ∧ player.phaseMask≠d.getCurrentPhasemask player
            then [.phaseMask (d.getCurrentPhasemask player)] else []) := by
  have hidle : PhaseMgr.isUpdateInProgress
      ⟨player,d,flagIf client CLIENTSIDE_CHANGED ||| flagIf server SERVERSIDE_CHANGED⟩=false := by
    have hzone : (flagIf client CLIENTSIDE_CHANGED ||| flagIf server SERVERSIDE_CHANGED) &&&
        ZONE_UPDATE=0 := by
      cases client <;> cases server <;> decide
    have harea : (flagIf client CLIENTSIDE_CHANGED ||| flagIf server SERVERSIDE_CHANGED) &&&
        AREA_UPDATE=0 := by
      cases client <;> cases server <;> decide
    simp [PhaseMgr.isUpdateInProgress,hzone,harea]
  have hclient : (flagIf client CLIENTSIDE_CHANGED ||| flagIf server SERVERSIDE_CHANGED) &&&
      CLIENTSIDE_CHANGED≠0 ↔ client=true := by
    cases client <;> cases server <;> decide
  have hserver : (flagIf client CLIENTSIDE_CHANGED ||| flagIf server SERVERSIDE_CHANGED) &&&
      SERVERSIDE_CHANGED≠0 ↔ server=true := by
    cases client <;> cases server <;> decide
  unfold PhaseMgr.update
  rw [hidle]
  simp only [hclient,hserver,Bool.false_eq_true,if_false]
  unfold PhaseMgr.sendPhaseMaskToPlayer PhaseMgr.sendPhaseshiftToPlayer
  cases server with
  | false => rfl
  | true =>
    by_cases hsame : player.phaseMask=d.getCurrentPhasemask player
    · have hplayer : ({player with phaseMask := d.getCurrentPhasemask player} : Player)=player := by
        rw [← hsame]
      simp only [if_true,if_pos hsame,hplayer]
      simp [hsame]
    · simp only [if_true,if_neg hsame]
      simp [hsame]

/-- What the manager sends in a step. -/
structure Updates (w w' : World) : Prop where
  /-- Where the mask of the auras changes, the player has the current mask afterwards, and the
  change of it is sent. -/
  mask : w.manager.phaseData.phasemaskThroughAuras≠w'.manager.phaseData.phasemaskThroughAuras →
    w'.manager.player.phaseMask=w'.manager.phaseData.getCurrentPhasemask w'.manager.player ∧
    (w.manager.player.phaseMask≠w'.manager.player.phaseMask →
      .phaseMask w'.manager.player.phaseMask∈w'.sent)
  /-- Where the phases or the terrain swaps change, they are sent. -/
  shift : w.manager.phaseData.phaseIds≠w'.manager.phaseData.phaseIds ∨
      w.manager.phaseData.terrainswaps≠w'.manager.phaseData.terrainswaps →
    .phaseshift w'.manager.phaseData.phaseIds w'.manager.phaseData.terrainswaps∈w'.sent

/-- The player has the current mask. -/
def Synced (m : PhaseMgr) : Prop := m.player.phaseMask=m.phaseData.getCurrentPhasemask m.player

/-- What auras do not touch. -/
structure SameFrame (m m' : PhaseMgr) : Prop where
  /-- The mask of the definitions. -/
  definitionsMask :
    m'.phaseData.phasemaskThroughDefinitions=m.phaseData.phasemaskThroughDefinitions
  definitions : m'.phaseData.activePhaseDefinitions=m.phaseData.activePhaseDefinitions
  custom : m'.phaseData.customPhasemask=m.phaseData.customPhasemask
  gameMaster : m'.player.gameMaster=m.player.gameMaster

/-- What holds in a run from a manager. -/
structure Kept (store : ℕ → Option SpellPhaseInfo) (m : PhaseMgr) (w : World) : Prop where
  /-- The entries are those of the effects. -/
  tracked : Tracked store w.manager.phaseData w.registered
  flags : w.manager.updateFlags=0
  /-- Nothing else has changed. -/
  frame : SameFrame m w.manager
  /-- The player still has the current mask. -/
  synced : Synced m → Synced w.manager

variable {w' : World} {client server : Bool}

/-- The frame and the mask of the auras decide the current mask. -/
theorem SameFrame.current {m' : PhaseMgr} (h : SameFrame m m')
    (hmask : m'.phaseData.phasemaskThroughAuras=m.phaseData.phasemaskThroughAuras) :
    m'.phaseData.getCurrentPhasemask m'.player=m.phaseData.getCurrentPhasemask m.player := by
  unfold PhaseData.getCurrentPhasemask PhaseData.getPhaseMaskForSpawn
  rw [h.gameMaster,h.custom,h.definitionsMask,hmask]

theorem updates_of_step (w w' : World) (registered : List AuraEffect) (data : PhaseData)
    (client server : Bool)
    (hdata : data.phasemaskThroughDefinitions=w.manager.phaseData.phasemaskThroughDefinitions ∧
      data.activePhaseDefinitions=w.manager.phaseData.activePhaseDefinitions ∧
      data.customPhasemask=w.manager.phaseData.customPhasemask)
    (hmask : server=false →
      data.phasemaskThroughAuras=w.manager.phaseData.phasemaskThroughAuras)
    (hshift : client=false → data.phaseIds=w.manager.phaseData.phaseIds ∧
      data.terrainswaps=w.manager.phaseData.terrainswaps)
    (hw' : w'=⟨(PhaseMgr.update ⟨w.manager.player,data,
        flagIf client CLIENTSIDE_CHANGED ||| flagIf server SERVERSIDE_CHANGED⟩).1,registered,
      (PhaseMgr.update ⟨w.manager.player,data,
        flagIf client CLIENTSIDE_CHANGED ||| flagIf server SERVERSIDE_CHANGED⟩).2⟩) :
    Updates w w' ∧ SameFrame w.manager w'.manager ∧ w'.manager.updateFlags=0 ∧
      w'.manager.phaseData=data ∧ (Synced w.manager → Synced w'.manager) := by
  rw [update_eq] at hw'
  subst hw'
  have hframe : SameFrame w.manager ⟨if server then
      {w.manager.player with phaseMask := data.getCurrentPhasemask w.manager.player}
      else w.manager.player,data,0⟩ :=
    ⟨hdata.1,hdata.2.1,hdata.2.2,by cases server <;> rfl⟩
  have hcurrent : ∀ mask,data.getCurrentPhasemask {w.manager.player with phaseMask := mask}=
      data.getCurrentPhasemask w.manager.player := fun _ => rfl
  refine ⟨⟨?_,?_⟩,hframe,rfl,rfl,?_⟩
  · intro hchanged
    cases server with
    | false => exact absurd (hmask rfl).symm hchanged
    | true =>
      refine ⟨rfl,fun hdiff => List.mem_append_right _ ?_⟩
      rw [if_pos ⟨rfl,hdiff⟩]
      exact List.mem_singleton.mpr rfl
  · intro hchanged
    cases client with
    | false =>
      obtain ⟨hids,hswaps⟩ := hshift rfl
      rcases hchanged with hdiff | hdiff
      · exact absurd hids.symm hdiff
      · exact absurd hswaps.symm hdiff
    | true => exact List.mem_append_left _ (List.mem_singleton.mpr rfl)
  · intro hsynced
    cases server with
    | false => exact hsynced.trans (hframe.current (hmask rfl)).symm
    | true => rfl

theorem SameFrame.trans {m' m'' : PhaseMgr} (h : SameFrame m m') (h' : SameFrame m' m'') :
    SameFrame m m'' :=
  ⟨h'.definitionsMask.trans h.definitionsMask,h'.definitions.trans h.definitions,
    h'.custom.trans h.custom,h'.gameMaster.trans h.gameMaster⟩

/-- Without phase and terrain swap nothing is to be shifted. -/
theorem not_client_iff : info.needsClientSideUpdate=false ↔ info.terrainswapmap=0 ∧ info.phaseId=0 := by
  unfold PhaseInfo.needsClientSideUpdate
  simp

/-- An effect that shifts nothing does not change what is sent. -/
theorem collected_eq {data : PhaseData} {registered registered' : List AuraEffect}
    (h : Tracked store d registered) (h' : Tracked store data registered')
    (hdefinitions : data.activePhaseDefinitions=d.activePhaseDefinitions)
    (hothers : ∀ other,other≠e → (other∈registered' ↔ other∈registered))
    (hclient : (phaseInfoOf store e).needsClientSideUpdate=false) :
    data.phaseIds=d.phaseIds ∧ data.terrainswaps=d.terrainswaps := by
  obtain ⟨hterrain,hphase⟩ := not_client_iff.mp hclient
  have hsame : ∀ (f : PhaseInfo → ℕ),f (phaseInfoOf store e)=0 → ∀ x≠0,
      (∃ e∈registered',f (phaseInfoOf store e)=x) ↔ ∃ e∈registered,f (phaseInfoOf store e)=x := by
    intro f hf x hx
    refine exists_congr fun other => ?_
    rcases eq_or_ne other e with rfl | hdiff
    · rw [hf]
      exact ⟨fun h => absurd h.2.symm hx,fun h => absurd h.2.symm hx⟩
    · rw [hothers other hdiff]
  constructor
  · refine Finset.ext fun x => ?_
    unfold PhaseData.phaseIds
    rw [h'.mem_collected PhaseInfo.phaseId PhaseDefinition.phaseId rfl,
      h.mem_collected PhaseInfo.phaseId PhaseDefinition.phaseId rfl,hdefinitions]
    exact and_congr_right fun hx => or_congr_left (hsame PhaseInfo.phaseId hphase x hx)
  · refine Finset.ext fun x => ?_
    unfold PhaseData.terrainswaps
    rw [h'.mem_collected PhaseInfo.terrainswapmap PhaseDefinition.terrainswapmap rfl,
      h.mem_collected PhaseInfo.terrainswapmap PhaseDefinition.terrainswapmap rfl,hdefinitions]
    exact and_congr_right fun hx => or_congr_left (hsame PhaseInfo.terrainswapmap hterrain x hx)

theorem removeAuraInfo_frame (d : PhaseData) (spellId : ℕ) :
    (d.removeAuraInfo spellId).1.phasemaskThroughDefinitions=d.phasemaskThroughDefinitions ∧
      (d.removeAuraInfo spellId).1.activePhaseDefinitions=d.activePhaseDefinitions ∧
      (d.removeAuraInfo spellId).1.customPhasemask=d.customPhasemask := by
  unfold PhaseData.removeAuraInfo
  split
  · exact ⟨rfl,rfl,rfl⟩
  · dsimp only
    split <;> exact ⟨rfl,rfl,rfl⟩

/-- A step sends what it changes and keeps what holds. -/
theorem Kept.after (h : Kept store m w) {a : Action} (hallowed : Allowed store w a) :
    Updates w (step store w a) ∧ Kept store m (step store w a) := by
  cases a with
  | register e =>
    have htracked := h.tracked.register hallowed
    have hstep := updates_of_step w (step store w (.register e)) (e::w.registered)
      (w.manager.phaseData.addAuraInfo e.id (phaseInfoOf store e))
      (phaseInfoOf store e).needsClientSideUpdate
      (phaseInfoOf store e).needsServerSideUpdate ⟨rfl,rfl,rfl⟩ ?_ ?_ ?_
    · obtain ⟨hupdates,hframe,hflags,hdata,hsynced⟩ := hstep
      refine ⟨hupdates,?_,hflags,h.frame.trans hframe,fun hs => hsynced (h.synced hs)⟩
      rw [hdata]
      exact htracked
    · intro hserver
      have hzero : (phaseInfoOf store e).phasemask=0 := by
        simpa [PhaseInfo.needsServerSideUpdate] using hserver
      unfold PhaseData.addAuraInfo
      simp [hzero]
    · intro hclient
      exact collected_eq h.tracked htracked rfl
        (fun other hother => by simp [hother]) hclient
    · unfold step PhaseMgr.registerPhasingAuraEffect
      dsimp only
      rw [h.flags,no_flags_or,BitVec.or_comm]
  | unRegister e =>
    obtain ⟨he,hlast⟩ := hallowed
    obtain ⟨htracked,hflags'⟩ := h.tracked.unRegister he hlast
    have hframe := removeAuraInfo_frame w.manager.phaseData e.id
    have hothers : ∀ other,other≠e → (other∈w.registered.erase e ↔ other∈w.registered) :=
      fun other hother => List.mem_erase_of_ne hother
    have hstep := updates_of_step w (step store w (.unRegister e)) (w.registered.erase e)
      (w.manager.phaseData.removeAuraInfo e.id).1
      (phaseInfoOf store e).needsClientSideUpdate
      (phaseInfoOf store e).needsServerSideUpdate hframe ?_ ?_ ?_
    · obtain ⟨hupdates,hframe,hflags,hdata,hsynced⟩ := hstep
      refine ⟨hupdates,?_,hflags,h.frame.trans hframe,fun hs => hsynced (h.synced hs)⟩
      rw [hdata]
      exact htracked
    · intro hserver
      have hzero : (phaseInfoOf store e).phasemask=0 := by
        simpa [PhaseInfo.needsServerSideUpdate] using hserver
      rw [htracked.mask,h.tracked.mask]
      refine Nat.eq_of_testBit_eq fun i => ?_
      rw [Bool.eq_iff_iff,testBit_orAll,testBit_orAll]
      simp only [List.mem_map,exists_exists_and_eq_and]
      refine exists_congr fun other => ?_
      rcases eq_or_ne other e with rfl | hdiff
      · simp [hzero]
      · rw [hothers other hdiff]
    · intro hclient
      exact collected_eq h.tracked htracked hframe.2.1 hothers hclient
    · unfold step PhaseMgr.unRegisterPhasingAuraEffect
      dsimp only
      rw [h.flags,no_flags_or,hflags']

/-! ## Runs -/

/-- What is said of the state. -/
structure Sound (store : ℕ → Option SpellPhaseInfo) (w : World) : Prop where
  mask : w.manager.phaseData.phasemaskThroughAuras=
    orAll (w.registered.map fun e => (phaseInfoOf store e).phasemask)
  /-- The phases that are sent are those of the effects and of the active definitions. -/
  phaseIds : ∀ x,x∈w.manager.phaseData.phaseIds ↔ x≠0 ∧
    ((∃ e∈w.registered,(phaseInfoOf store e).phaseId=x) ∨
      ∃ phase∈w.manager.phaseData.activePhaseDefinitions,phase.phaseId=x)
  terrainswaps : ∀ x,x∈w.manager.phaseData.terrainswaps ↔ x≠0 ∧
    ((∃ e∈w.registered,(phaseInfoOf store e).terrainswapmap=x) ∨
      ∃ phase∈w.manager.phaseData.activePhaseDefinitions,phase.terrainswapmap=x)

theorem Tracked.sound (h : Tracked store w.manager.phaseData w.registered) : Sound store w :=
  ⟨h.mask,fun x => h.mem_collected PhaseInfo.phaseId PhaseDefinition.phaseId rfl x,
    fun x => h.mem_collected PhaseInfo.terrainswapmap PhaseDefinition.terrainswapmap rfl x⟩

/-- A manager before any aura, with any definitions, where no update is waiting. -/
structure Fresh (m : PhaseMgr) : Prop where
  entries : m.phaseData.spellPhaseInfo=[]
  mask : m.phaseData.phasemaskThroughAuras=0
  flags : m.updateFlags=0

/-- A manager is as before: an entry that is empty counts as none. -/
structure Restored (m m' : PhaseMgr) : Prop where
  /-- Nothing else has changed. -/
  frame : SameFrame m m'
  /-- The mask of the auras is as before. -/
  mask : m'.phaseData.phasemaskThroughAuras=m.phaseData.phasemaskThroughAuras
  /-- So is what the spells contribute, -/
  entries : ∀ spellId,index spellId m'.phaseData.spellPhaseInfo=
    index spellId m.phaseData.spellPhaseInfo
  /-- what is sent, -/
  sent : m'.phaseData.phaseIds=m.phaseData.phaseIds ∧
    m'.phaseData.terrainswaps=m.phaseData.terrainswaps
  /-- what is waiting, -/
  flags : m'.updateFlags=m.updateFlags
  /-- and the player, who had the current mask. -/
  player : Synced m → m'.player=m.player

theorem tracked_fresh (store : ℕ → Option SpellPhaseInfo) (h : Fresh m) : Tracked store m.phaseData [] := by
  constructor
  · rw [h.entries]
    exact List.Pairwise.nil
  · exact fun e he => absurd he List.not_mem_nil
  · intro spellId _
    rw [h.entries]
    rfl
  · rw [h.mask]
    rfl

theorem kept_fresh (h : Fresh m) : Kept store m ⟨m,[],[]⟩ :=
  ⟨tracked_fresh store h,h.flags,⟨rfl,rfl,rfl,rfl⟩,id⟩

theorem Kept.restored (h : Kept store m w) (hfresh : Fresh m) (hnone : w.registered=[]) :
    Restored m w.manager := by
  have hstart := tracked_fresh store hfresh
  have hend := h.tracked
  rw [hnone] at hend
  have hmask : w.manager.phaseData.phasemaskThroughAuras=m.phaseData.phasemaskThroughAuras :=
    hend.mask.trans hstart.mask.symm
  refine ⟨h.frame,hmask,fun spellId => ?_,?_,h.flags.trans hfresh.flags.symm,fun hsynced => ?_⟩
  · rw [hend.empty spellId (by simp),hstart.empty spellId (by simp)]
  · exact collected_eq (e := ⟨0,0,1,0⟩) hstart hend h.frame.definitions (by simp) rfl
  have hsynced' := h.synced hsynced
  have hphase : w.manager.player.phaseMask=m.player.phaseMask :=
    hsynced'.trans ((h.frame.current hmask).trans hsynced.symm)
  have hmaster := h.frame.gameMaster
  cases hp : w.manager.player
  cases hp' : m.player
  simp_all

/-- In every run of registering and unregistering effects of any spells, from any manager before
the first one, the masks and what is sent are those of the registered effects and the active
definitions, each change is sent, and without effects the manager is as before, if each step meets
the condition. -/
theorem phasing_by_auras (store : ℕ → Option SpellPhaseInfo) (m : PhaseMgr) (hfresh : Fresh m)
    (actions : List Action) (hallowed : Meets (step store) (Allowed store) ⟨m,[],[]⟩ actions) :
    Sound store (run (step store) ⟨m,[],[]⟩ actions) ∧
      Meets (step store) (fun w a => Updates w (step store w a)) ⟨m,[],[]⟩ actions ∧
      ((run (step store) ⟨m,[],[]⟩ actions).registered=[] →
        Restored m (run (step store) ⟨m,[],[]⟩ actions).manager) := by
  have hkept : Kept store m (run (step store) ⟨m,[],[]⟩ actions) :=
    run_invariant (fun w a hw ha => (hw.after ha).2) (kept_fresh hfresh) hallowed
  refine ⟨hkept.tracked.sound,?_,hkept.restored hfresh⟩
  exact meets_of_invariant (fun w a hw ha => (hw.after ha).1) (fun w a hw ha => (hw.after ha).2)
    (kept_fresh hfresh) hallowed

/-- A manager of a player without auras, with one active definition. -/
def plainManager : PhaseMgr := ⟨⟨false,4⟩,⟨4,0,0,[⟨4,7,0⟩],[]⟩,0⟩

/-- The effects of two spells come and go. -/
theorem phasing_by_auras_pair :
    Sound (fun _ => none) (run (step fun _ => none) ⟨plainManager,[],[]⟩
      [.register ⟨10,0,2,5⟩,.register ⟨11,0,2,6⟩,.unRegister ⟨10,0,2,5⟩]) :=
  (phasing_by_auras (fun _ => none) plainManager ⟨rfl,rfl,rfl⟩
    [.register ⟨10,0,2,5⟩,.register ⟨11,0,2,6⟩,.unRegister ⟨10,0,2,5⟩] (by decide)).1

/-- Of two effects of a spell one takes the other with it when it goes, and an effect without a
mask does not go. -/
theorem phasing_loses_effects :
    ¬Sound (fun _ => none) (run (step fun _ => none) ⟨plainManager,[],[]⟩
      [.register ⟨10,0,2,0⟩,.register ⟨10,1,8,0⟩,.unRegister ⟨10,0,2,0⟩]) ∧
    ¬Sound (fun _ => none) (run (step fun _ => none) ⟨plainManager,[],[]⟩
      [.register ⟨10,0,0,5⟩,.unRegister ⟨10,0,0,5⟩]) := by
  constructor
  · intro h
    have hmask := h.mask
    revert hmask
    decide
  · intro h
    have hphase := (h.phaseIds 5).mp (by decide)
    revert hphase
    decide

end Projectnelth.PhaseModel
