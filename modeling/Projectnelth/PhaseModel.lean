import Mathlib
import Projectnelth.OrderedMap

/-!
# Phasing by auras

`PhaseMgr` keeps what the phasing auras of a player contribute by their spells, and a mask of it
that is kept up to date by itself. What has changed since the last update is noted in flags, and an
update sends it.
-/

namespace Projectnelth.PhaseModel

/-- `PhaseDefinition`, as far as it is sent. -/
structure PhaseDefinition where
  phasemask : ℕ
  phaseId : ℕ
  /-- The map whose terrain is swapped in, or zero. -/
  terrainswapmap : ℕ
  deriving DecidableEq, Repr

structure SpellPhaseInfo where
  phasemask : ℕ
  /-- The map whose terrain is swapped in, or zero. -/
  terrainswapmap : ℕ
  deriving DecidableEq, Repr

structure PhaseInfo where
  phasemask : ℕ
  /-- The map whose terrain is swapped in, or zero. -/
  terrainswapmap : ℕ
  phaseId : ℕ
  deriving DecidableEq, Repr

instance : Inhabited PhaseInfo := ⟨⟨0,0,0⟩⟩

def PhaseInfo.needsServerSideUpdate (info : PhaseInfo) : Bool := info.phasemask≠0

def PhaseInfo.needsClientSideUpdate (info : PhaseInfo) : Bool :=
  info.terrainswapmap≠0 || info.phaseId≠0

/-- `AuraEffect`, as far as phasing reads it. -/
structure AuraEffect where
  /-- `GetId`: the spell. -/
  id : ℕ
  /-- Which effect of the spell it is. -/
  index : ℕ
  /-- `GetMiscValue` as a mask. -/
  miscValue : ℕ
  /-- `GetMiscValueB` as a phase. -/
  miscValueB : ℕ
  deriving DecidableEq, Repr

/-- `Player`, as far as phasing is concerned. -/
structure Player where
  /-- `isGameMaster`. -/
  gameMaster : Bool
  /-- `GetPhaseMask`. -/
  phaseMask : ℕ
  deriving DecidableEq, Repr

structure PhaseData where
  phasemaskThroughDefinitions : ℕ
  phasemaskThroughAuras : ℕ
  customPhasemask : ℕ
  activePhaseDefinitions : List PhaseDefinition
  /-- What the auras contribute, by their spells. No order of it is read. -/
  spellPhaseInfo : List (ℕ×PhaseInfo)
  deriving DecidableEq, Repr

def PHASEMASK_NORMAL : ℕ := 1

def PHASEMASK_ANYWHERE : ℕ := 0xFFFFFFFF

def PhaseData.getPhaseMaskForSpawn (d : PhaseData) : ℕ :=
  let phase := d.phasemaskThroughDefinitions ||| d.phasemaskThroughAuras
  if phase≠0 then phase else PHASEMASK_NORMAL

def PhaseData.getCurrentPhasemask (d : PhaseData) (player : Player) : ℕ :=
  if player.gameMaster then PHASEMASK_ANYWHERE
  else if d.customPhasemask≠0 then d.customPhasemask
  else d.getPhaseMaskForSpawn

/-- A loop that inserts the numbers that are not zero. -/
def collect {α : Type} (f : α → ℕ) (l : List α) (s : Finset ℕ) : Finset ℕ :=
  l.foldl (fun s a => if f a≠0 then insert (f a) s else s) s

/-- The phases that `SendPhaseshiftToPlayer` sends. -/
def PhaseData.phaseIds (d : PhaseData) : Finset ℕ :=
  collect PhaseDefinition.phaseId d.activePhaseDefinitions
    (collect (fun entry => entry.2.phaseId) d.spellPhaseInfo ∅)

/-- The maps that it sends. -/
def PhaseData.terrainswaps (d : PhaseData) : Finset ℕ :=
  collect PhaseDefinition.terrainswapmap d.activePhaseDefinitions
    (collect (fun entry => entry.2.terrainswapmap) d.spellPhaseInfo ∅)

def PhaseData.addAuraInfo (d : PhaseData) (spellId : ℕ) (phaseInfo : PhaseInfo) : PhaseData :=
  let mask :=
    if phaseInfo.phasemask≠0 then d.phasemaskThroughAuras ||| phaseInfo.phasemask
    else d.phasemaskThroughAuras
  {d with
    phasemaskThroughAuras := mask
    spellPhaseInfo := OrderedMap.write spellId phaseInfo d.spellPhaseInfo}

/-- The masks of some entries together. -/
def orAll (masks : List ℕ) : ℕ := masks.foldl (fun mask m => mask ||| m) 0

/-- `PHASE_UPDATE_FLAG_CLIENTSIDE_CHANGED`. -/
def CLIENTSIDE_CHANGED : BitVec 8 := 0x08

/-- `PHASE_UPDATE_FLAG_SERVERSIDE_CHANGED`. -/
def SERVERSIDE_CHANGED : BitVec 8 := 0x10

/-- `PHASE_UPDATE_FLAG_ZONE_UPDATE`. -/
def ZONE_UPDATE : BitVec 8 := 0x01

/-- `PHASE_UPDATE_FLAG_AREA_UPDATE`. -/
def AREA_UPDATE : BitVec 8 := 0x02

/-- A flag, if a condition holds. -/
def flagIf (condition : Bool) (flag : BitVec 8) : BitVec 8 := if condition then flag else 0

/-- `PhaseData::RemoveAuraInfo`: the data, and the flags it returns. -/
def PhaseData.removeAuraInfo (d : PhaseData) (spellId : ℕ) : PhaseData×BitVec 8 :=
  match OrderedMap.find spellId d.spellPhaseInfo with
  | none => (d,0)
  | some info =>
    let client := flagIf info.needsClientSideUpdate CLIENTSIDE_CHANGED
    -- only an entry with a mask is erased
    if info.needsServerSideUpdate then
      let rest := KeyedList.remove Prod.fst spellId d.spellPhaseInfo
      ({d with
        phasemaskThroughAuras := orAll (rest.map fun entry => entry.2.phasemask)
        spellPhaseInfo := rest},client ||| SERVERSIDE_CHANGED)
    else (d,client)

/-- What is sent. -/
inductive Message where
  /-- `SendPhaseshiftToPlayer`. -/
  | phaseshift (phaseIds terrainswaps : Finset ℕ)
  /-- `SendPhaseMaskToPlayer`. -/
  | phaseMask (mask : ℕ)
  deriving DecidableEq

structure PhaseMgr where
  player : Player
  phaseData : PhaseData
  updateFlags : BitVec 8

def PhaseMgr.isUpdateInProgress (m : PhaseMgr) : Bool :=
  m.updateFlags &&& ZONE_UPDATE≠0 || m.updateFlags &&& AREA_UPDATE≠0

/-- `PhaseData::SendPhaseshiftToPlayer`. -/
def PhaseMgr.sendPhaseshiftToPlayer (m : PhaseMgr) : List Message :=
  [.phaseshift m.phaseData.phaseIds m.phaseData.terrainswaps]

/-- `PhaseData::SendPhaseMaskToPlayer`. -/
def PhaseMgr.sendPhaseMaskToPlayer (m : PhaseMgr) : PhaseMgr×List Message :=
  let phasemask := m.phaseData.getCurrentPhasemask m.player
  if m.player.phaseMask=phasemask then (m,[])
  else ({m with player := {m.player with phaseMask := phasemask}},[.phaseMask phasemask])

def PhaseMgr.update (m : PhaseMgr) : PhaseMgr×List Message :=
  if m.isUpdateInProgress then (m,[])
  else
    let shift := if m.updateFlags &&& CLIENTSIDE_CHANGED≠0 then m.sendPhaseshiftToPlayer else []
    let (m,mask) :=
      if m.updateFlags &&& SERVERSIDE_CHANGED≠0 then m.sendPhaseMaskToPlayer else (m,[])
    ({m with updateFlags := 0},shift++mask)

/-- What an effect contributes: its own mask, or else what is known of its spell. -/
def phaseInfoOf (spellPhaseStore : ℕ → Option SpellPhaseInfo) (e : AuraEffect) : PhaseInfo :=
  if e.miscValue≠0 then ⟨e.miscValue,0,e.miscValueB⟩
  else
    match spellPhaseStore e.id with
    | some store => ⟨store.phasemask,store.terrainswapmap,e.miscValueB⟩
    | none => ⟨0,0,e.miscValueB⟩

def PhaseMgr.registerPhasingAuraEffect (spellPhaseStore : ℕ → Option SpellPhaseInfo)
    (m : PhaseMgr) (e : AuraEffect) : PhaseMgr×List Message :=
  let phaseInfo := phaseInfoOf spellPhaseStore e
  let flags := m.updateFlags ||| flagIf phaseInfo.needsServerSideUpdate SERVERSIDE_CHANGED |||
    flagIf phaseInfo.needsClientSideUpdate CLIENTSIDE_CHANGED
  PhaseMgr.update
    {m with phaseData := m.phaseData.addAuraInfo e.id phaseInfo,updateFlags := flags}

def PhaseMgr.unRegisterPhasingAuraEffect (m : PhaseMgr) (e : AuraEffect) :
    PhaseMgr×List Message :=
  let (data,flags) := m.phaseData.removeAuraInfo e.id
  PhaseMgr.update {m with phaseData := data,updateFlags := m.updateFlags ||| flags}

/-- The manager, with the effects that are registered. -/
structure World where
  manager : PhaseMgr
  registered : List AuraEffect
  /-- What the last step sent. -/
  sent : List Message

/-- What happens to the auras. -/
inductive Action where
  /-- An effect is applied. -/
  | register (e : AuraEffect)
  /-- It is removed. -/
  | unRegister (e : AuraEffect)
  deriving DecidableEq, Repr

/-- A step. -/
def step (spellPhaseStore : ℕ → Option SpellPhaseInfo) (w : World) : Action → World
  | .register e =>
    let (manager,sent) := w.manager.registerPhasingAuraEffect spellPhaseStore e
    ⟨manager,e::w.registered,sent⟩
  | .unRegister e =>
    let (manager,sent) := w.manager.unRegisterPhasingAuraEffect e
    ⟨manager,w.registered.erase e,sent⟩

end Projectnelth.PhaseModel
