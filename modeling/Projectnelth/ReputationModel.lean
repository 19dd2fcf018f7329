import Mathlib
import Projectnelth.ArraySizes
import Projectnelth.KeyedList

/-!
# Reputation

A player has a standing with each faction of the reputation list, beside the base that the
race and the class give. The manager counts how many factions are shown and how many have
come to the highest ranks. Rates are exact numbers; the 32-bit integers wrap around.
-/

namespace Projectnelth.ReputationModel

open KeyedList

inductive ReputationRank where
  | hated
  | hostile
  | unfriendly
  | neutral
  | friendly
  | honored
  | revered
  | exalted
  deriving DecidableEq

/-- The number of a rank. -/
def ReputationRank.value : ReputationRank → ℕ
  | .hated => 0
  | .hostile => 1
  | .unfriendly => 2
  | .neutral => 3
  | .friendly => 4
  | .honored => 5
  | .revered => 6
  | .exalted => 7

def FACTION_FLAG_VISIBLE : UInt8 := 0x01
def FACTION_FLAG_AT_WAR : UInt8 := 0x02
def FACTION_FLAG_HIDDEN : UInt8 := 0x04
def FACTION_FLAG_INVISIBLE_FORCED : UInt8 := 0x08
def FACTION_FLAG_PEACE_FORCED : UInt8 := 0x10
def FACTION_FLAG_INACTIVE : UInt8 := 0x20
def FACTION_FLAG_SPECIAL : UInt8 := 0x80

/-- Some of the flags are set. -/
def has (flags mask : UInt8) : Bool := flags &&& mask≠0

/-- One of the four bases in a faction entry. -/
structure BaseRep where
  /-- `BaseRepRaceMask`. -/
  raceMask : UInt32
  /-- `BaseRepClassMask`. -/
  classMask : UInt32
  /-- `BaseRepValue`. -/
  value : Int32
  /-- `ReputationFlags`. -/
  flags : UInt32

structure FactionEntry where
  ID : UInt32
  reputationListID : Int32
  base : Fin 4 → BaseRep
  team : UInt32
  spilloverRateIn : ℚ
  spilloverRateOut : ℚ
  spilloverMaxRankIn : UInt32

def FactionEntry.canHaveReputation (entry : FactionEntry) : Bool := entry.reputationListID ≥ 0

/-- The key of a faction in the list of the player. -/
def FactionEntry.repListID (entry : FactionEntry) : UInt32 := entry.reputationListID.toUInt32

/-- A faction in a spillover template. -/
structure SpilloverTarget where
  faction : UInt32
  /-- `faction_rate`. -/
  rate : ℚ
  /-- `faction_rank`. -/
  rank : ℕ

/-- The faction tables, and the player they are for. -/
structure World where
  /-- `sFactionStore`, from the first row. -/
  factionStore : List FactionEntry
  /-- Each row has an id of its own. -/
  ids : (factionStore.map FactionEntry.ID).Nodup
  listIDs : ((factionStore.filter FactionEntry.canHaveReputation).map
    FactionEntry.reputationListID).Nodup
  /-- `getORaceMask`. -/
  raceMask : UInt32
  /-- `getClassMask`. -/
  classMask : UInt32
  /-- `RATE_REPUTATION_GAIN`. -/
  rate : ℚ
  /-- `GetRepSpilloverTemplate`. -/
  spilloverTemplate : UInt32 → Option (List SpilloverTarget)
  /-- `OnPlayerReputationChange`: what the scripts make of an amount. -/
  onReputationChange : UInt32 → Int32 → Bool → Int32

structure FactionState where
  ID : UInt32
  ReputationListID : UInt32
  Standing : Int32
  Flags : UInt8

structure ReputationMgr where
  factions : List FactionState
  visibleFactionCount : UInt8
  honoredFactionCount : UInt8
  reveredFactionCount : UInt8
  exaltedFactionCount : UInt8

def Reputation_Cap : Int32 := 42999
def Reputation_Bottom : Int32 := -42000

def reputationToRank (standing : Int32) : ReputationRank :=
  if standing ≥ 42000 then .exalted
  else if standing > 21000 then .revered
  else if standing > 9000 then .honored
  else if standing > 3000 then .friendly
  else if standing ≥ 0 then .neutral
  else if standing ≥ -3000 then .unfriendly
  else if standing ≥ -6000 then .hostile
  else .hated

/-- The conversion of a number to `int32`. -/
def toInt32 (q : ℚ) : Int32 := Int32.ofInt (if 0 ≤ q then q.floor else q.ceil)

section Manager
variable (w : World)

def lookupEntry (id : UInt32) : Option FactionEntry := lookup FactionEntry.ID id w.factionStore

def getFactionTeamList (team : UInt32) : Option (List UInt32) :=
  let flist := w.factionStore.filter fun entry => entry.team≠0 ∧ entry.team=team
  if flist=[] then none else some (flist.map FactionEntry.ID)

/-- The first of the bases that is for the race and the class of the player. -/
def baseFor (entry : FactionEntry) : Option BaseRep :=
  ((List.finRange 4).map entry.base).find? fun base =>
    (base.raceMask &&& w.raceMask≠0 || (base.raceMask=0 && base.classMask≠0)) &&
      (base.classMask &&& w.classMask≠0 || base.classMask=0)

def getBaseReputation (entry : FactionEntry) : Int32 :=
  ((baseFor w entry).map BaseRep.value).getD 0

/-- `GetDefaultStateFlags`, as they are kept. -/
def getDefaultStateFlags (entry : FactionEntry) : UInt8 :=
  (((baseFor w entry).map BaseRep.flags).getD 0).toUInt8

def getReputation (s : ReputationMgr) (entry : FactionEntry) : Int32 :=
  if entry.canHaveReputation then
    match lookup FactionState.ReputationListID entry.repListID s.factions with
    | some state => getBaseReputation w entry+state.Standing
    | none => 0
  else 0

def getRank (s : ReputationMgr) (entry : FactionEntry) : ReputationRank :=
  reputationToRank (getReputation w s entry)

/-- `GetReputationRank` of the player. -/
def getReputationRank (s : ReputationMgr) (faction : UInt32) : ReputationRank :=
  match lookupEntry w faction with
  | some entry => getRank w s entry
  | none => reputationToRank 0

/-- A counter after a faction has come to another rank. -/
def recount (count : UInt8) (old new : Bool) : UInt8 :=
  let count := if old then count-1 else count
  if new then count+1 else count

def updateRankCounters (s : ReputationMgr) (oldRank newRank : ReputationRank) : ReputationMgr :=
  { s with
    exaltedFactionCount := recount s.exaltedFactionCount
      (oldRank.value ≥ ReputationRank.exalted.value) (newRank.value ≥ ReputationRank.exalted.value)
    reveredFactionCount := recount s.reveredFactionCount
      (oldRank.value ≥ ReputationRank.revered.value) (newRank.value ≥ ReputationRank.revered.value)
    honoredFactionCount := recount s.honoredFactionCount
      (oldRank.value ≥ ReputationRank.honored.value)
      (newRank.value ≥ ReputationRank.honored.value) }

/-- A faction of the list comes in as it is at first. -/
def initializeFaction (s : ReputationMgr) (entry : FactionEntry) : ReputationMgr :=
  if entry.canHaveReputation then
    let newFaction : FactionState :=
      { ID := entry.ID
        ReputationListID := entry.repListID
        Standing := 0
        Flags := getDefaultStateFlags w entry }
    let s := updateRankCounters
      { s with
        visibleFactionCount :=
          if has newFaction.Flags FACTION_FLAG_VISIBLE then s.visibleFactionCount+1
          else s.visibleFactionCount } .hostile (reputationToRank (getBaseReputation w entry))
    { s with factions := put FactionState.ReputationListID newFaction s.factions }
  else s

/-- `Initialize`. -/
def initializeFactions : ReputationMgr :=
  w.factionStore.foldl (initializeFaction w)
    { factions := []
      visibleFactionCount := 0
      honoredFactionCount := 0
      reveredFactionCount := 0
      exaltedFactionCount := 0 }

/-- Whether `SetVisible` makes a faction visible that was not. -/
def FactionState.comesUp (faction : FactionState) : Bool :=
  !(has faction.Flags (FACTION_FLAG_INVISIBLE_FORCED ||| FACTION_FLAG_HIDDEN) &&
      !has faction.Flags FACTION_FLAG_SPECIAL) &&
    !has faction.Flags FACTION_FLAG_VISIBLE

/-- `SetVisible` of a faction. -/
def FactionState.setVisible (faction : FactionState) : FactionState :=
  if faction.comesUp then { faction with Flags := faction.Flags ||| FACTION_FLAG_VISIBLE }
  else faction

/-- The count of the visible factions after `SetVisible`. -/
def countVisible (count : UInt8) (faction : FactionState) : UInt8 :=
  if faction.comesUp then count+1 else count

/-- `SetAtWar` of a faction. -/
def FactionState.setAtWar (faction : FactionState) (atWar : Bool) : FactionState :=
  if atWar && has faction.Flags FACTION_FLAG_PEACE_FORCED then faction
  else if has faction.Flags FACTION_FLAG_AT_WAR=atWar then faction
  else if atWar then { faction with Flags := faction.Flags ||| FACTION_FLAG_AT_WAR }
  else { faction with Flags := faction.Flags &&& ~~~FACTION_FLAG_AT_WAR }

/-- `SetInactive` of a faction. -/
def FactionState.setInactive (faction : FactionState) (inactive : Bool) : FactionState :=
  if inactive && (has faction.Flags (FACTION_FLAG_INVISIBLE_FORCED ||| FACTION_FLAG_HIDDEN) ||
      !has faction.Flags FACTION_FLAG_VISIBLE) then faction
  else if has faction.Flags FACTION_FLAG_INACTIVE=inactive then faction
  else if inactive then { faction with Flags := faction.Flags ||| FACTION_FLAG_INACTIVE }
  else { faction with Flags := faction.Flags &&& ~~~FACTION_FLAG_INACTIVE }

/-- A faction is written back to the list. -/
def write (s : ReputationMgr) (faction : FactionState) : ReputationMgr :=
  { s with factions := replace FactionState.ReputationListID faction s.factions }

def setOneFactionReputation (s : ReputationMgr) (entry : FactionEntry) (standing : Int32)
    (incremental : Bool) : ReputationMgr×Bool :=
  match lookup FactionState.ReputationListID entry.repListID s.factions with
  | none => (s,false)
  | some faction =>
    let baseRep := getBaseReputation w entry
    let standing :=
      if incremental then
        Int32.ofInt ((standing.toInt : ℚ)*w.rate+1/2).floor+(faction.Standing+baseRep)
      else standing
    let standing :=
      if standing > Reputation_Cap then Reputation_Cap
      else if standing < Reputation_Bottom then Reputation_Bottom
      else standing
    let oldRank := reputationToRank (faction.Standing+baseRep)
    let newRank := reputationToRank standing
    let moved := { faction with Standing := standing-baseRep }
    let shown := moved.setVisible
    let armed :=
      if newRank.value ≤ ReputationRank.hostile.value then shown.setAtWar true else shown
    let s := { s with visibleFactionCount := countVisible s.visibleFactionCount moved }
    (updateRankCounters (write s armed) oldRank newRank,true)

/-- The spillover to a faction of a template. -/
def spillToTarget (standing : Int32) (incremental : Bool) (s : ReputationMgr)
    (target : SpilloverTarget) : ReputationMgr :=
  if target.faction≠0 ∧ (getReputationRank w s target.faction).value ≤ target.rank then
    match lookupEntry w target.faction with
    | some entry =>
      (setOneFactionReputation w s entry (toInt32 ((standing.toInt : ℚ)*target.rate))
        incremental).1
    | none => s
  else s

/-- The spillover to an affiliated faction. -/
def spillToFaction (entry : FactionEntry) (spillOverRepOut : ℚ) (incremental : Bool)
    (result : ReputationMgr×Bool) (faction : UInt32) : ReputationMgr×Bool :=
  match lookupEntry w faction with
  | none => result
  | some entryCalc =>
    if entryCalc.ID=entry.ID ∨
        (getRank w result.1 entryCalc).value > entryCalc.spilloverMaxRankIn.toNat then result
    else
      let spilloverRep := toInt32 (spillOverRepOut*entryCalc.spilloverRateIn)
      if spilloverRep≠0 ∨ !incremental then
        setOneFactionReputation w result.1 entryCalc spilloverRep incremental
      else result

/-- The spillover that follows from the faction table. -/
def spillOver (s : ReputationMgr) (entry : FactionEntry) (standing : Int32)
    (incremental : Bool) : ReputationMgr×Bool :=
  let spread := fun (s : ReputationMgr) (amount : ℚ) (flist : Option (List UInt32)) =>
    (flist.getD []).foldl (spillToFaction w entry amount incremental) (s,false)
  match getFactionTeamList w entry.ID with
  | some flist => spread s standing.toInt (some flist)
  | none =>
    if entry.team≠0 ∧ entry.spilloverRateOut≠0 then
      let amount := (standing.toInt : ℚ)*entry.spilloverRateOut
      match lookupEntry w entry.team with
      | none => (s,false)
      | some parent =>
        match lookup FactionState.ReputationListID parent.repListID s.factions with
        | some state =>
          -- some team factions have their own standing: nothing goes to the sisters then
          if has state.Flags FACTION_FLAG_SPECIAL then
            ((setOneFactionReputation w s parent (toInt32 amount) incremental).1,false)
          else spread s amount (getFactionTeamList w entry.team)
        | none => spread s amount (getFactionTeamList w entry.team)
    else (s,false)

/-- The spillover of a change: a template goes before the faction table. -/
def spill (s : ReputationMgr) (entry : FactionEntry) (standing : Int32) (incremental : Bool) :
    ReputationMgr×Bool :=
  match w.spilloverTemplate entry.ID with
  | some targets => (targets.foldl (spillToTarget w standing incremental) s,false)
  | none => spillOver w s entry standing incremental

/-- `SetReputation`, and `ModifyReputation` when it is incremental. -/
def setReputation (s : ReputationMgr) (entry : FactionEntry) (standing : Int32)
    (incremental : Bool) : ReputationMgr×Bool :=
  let standing := w.onReputationChange entry.ID standing incremental
  let spilled := spill w s entry standing incremental
  match lookup FactionState.ReputationListID entry.repListID spilled.1.factions with
  | some _ => setOneFactionReputation w spilled.1 entry standing incremental
  | none => spilled

/-- `SetVisible` of a faction entry. -/
def setVisible (s : ReputationMgr) (entry : FactionEntry) : ReputationMgr :=
  if entry.canHaveReputation then
    match lookup FactionState.ReputationListID entry.repListID s.factions with
    | none => s
    | some faction =>
      write { s with visibleFactionCount := countVisible s.visibleFactionCount faction }
        faction.setVisible
  else s

/-- `SetVisible` of a faction template. -/
def setVisibleTemplate (s : ReputationMgr) (faction : UInt32) : ReputationMgr :=
  if faction=0 then s
  else
    match lookupEntry w faction with
    | none => s
    | some entry =>
      if (entry.base 1).raceMask &&& w.raceMask≠0 ∧ (entry.base 1).value=Reputation_Bottom then s
      else setVisible s entry

def setAtWar (s : ReputationMgr) (repListID : UInt32) (on : Bool) : ReputationMgr :=
  match lookup FactionState.ReputationListID repListID s.factions with
  | none => s
  | some faction =>
    if has faction.Flags (FACTION_FLAG_INVISIBLE_FORCED ||| FACTION_FLAG_HIDDEN) then s
    else write s (faction.setAtWar on)

def setInactive (s : ReputationMgr) (repListID : UInt32) (on : Bool) : ReputationMgr :=
  match lookup FactionState.ReputationListID repListID s.factions with
  | none => s
  | some faction => write s (faction.setInactive on)

/-- A row of `character_reputation`. -/
structure SavedRow where
  faction : UInt16
  standing : Int32
  flags : UInt16

/-- The rows of a character: `SaveToDB` keeps one for each faction. -/
abbrev SavedRows := { rows : List SavedRow // (rows.map SavedRow.faction).Nodup }

/-- A row is loaded. -/
def loadRow (s : ReputationMgr) (row : SavedRow) : ReputationMgr :=
  match lookupEntry w row.faction.toUInt32 with
  | none => s
  | some entry =>
    if entry.canHaveReputation then
      match lookup FactionState.ReputationListID entry.repListID s.factions with
      | none => s
      | some state =>
        let baseRep := getBaseReputation w entry
        let dbFactionFlags := row.flags.toUInt8
        let loaded := { state with Standing := row.standing }
        let newRank := reputationToRank (baseRep+row.standing)
        let visible := has dbFactionFlags FACTION_FLAG_VISIBLE
        let shown := if visible then loaded.setVisible else loaded
        let placed :=
          if has dbFactionFlags FACTION_FLAG_INACTIVE then shown.setInactive true else shown
        let armed :=
          if has dbFactionFlags FACTION_FLAG_AT_WAR then placed.setAtWar true
          else if has placed.Flags FACTION_FLAG_VISIBLE then placed.setAtWar false
          else placed
        let hostile :=
          if newRank.value ≤ ReputationRank.hostile.value then armed.setAtWar true else armed
        let s :=
          { s with
            visibleFactionCount :=
              if visible then countVisible s.visibleFactionCount loaded
              else s.visibleFactionCount }
        updateRankCounters (write s hostile) (reputationToRank baseRep) newRank
    else s

def loadFromDB (rows : SavedRows) : ReputationMgr := rows.1.foldl (loadRow w) (initializeFactions w)

/-- The operations on the reputation of a player. -/
inductive Op where
  | setReputation (faction : UInt32) (standing : Int32)
  | modifyReputation (faction : UInt32) (standing : Int32)
  | setOneFactionReputation (faction : UInt32) (standing : Int32) (incremental : Bool)
  | setVisibleTemplate (faction : UInt32)
  | setVisible (faction : UInt32)
  | setAtWar (repListID : UInt32) (on : Bool)
  | setInactive (repListID : UInt32) (on : Bool)

/-- An operation with a faction that is in the store. -/
def withEntry (s : ReputationMgr) (faction : UInt32) (f : FactionEntry → ReputationMgr) :
    ReputationMgr :=
  match lookupEntry w faction with
  | none => s
  | some entry => f entry

/-- One operation. -/
def step (s : ReputationMgr) : Op → ReputationMgr
  | .setReputation faction standing =>
    withEntry w s faction fun entry => (setReputation w s entry standing false).1
  | .modifyReputation faction standing =>
    withEntry w s faction fun entry => (setReputation w s entry standing true).1
  | .setOneFactionReputation faction standing incremental =>
    withEntry w s faction fun entry => (setOneFactionReputation w s entry standing incremental).1
  | .setVisibleTemplate faction => setVisibleTemplate w s faction
  | .setVisible faction => withEntry w s faction fun entry => setVisible s entry
  | .setAtWar repListID on => setAtWar s repListID on
  | .setInactive repListID on => setInactive s repListID on

end Manager

end Projectnelth.ReputationModel
