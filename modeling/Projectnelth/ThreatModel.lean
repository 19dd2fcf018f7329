import Mathlib

/-!
# Threat lists

A creature keeps a reference for each unit it hates, online ones in one container and the
others in a second. A reference tells its manager of every change of its status, and the
manager moves it between the containers. Floats are any type with comparisons, which need not be
those of an order, and the arithmetic of the processor as functions on it.
-/

namespace Projectnelth.ThreatModel

/-- The arithmetic of the floats, with the constants of the victim rules. -/
structure FloatOps (F : Type) where
  ofInt : ℤ → F
  /-- `+`. -/
  add : F → F → F
  /-- `-`. -/
  sub : F → F → F
  /-- `*`. -/
  mul : F → F → F
  /-- `/`. -/
  div : F → F → F
  /-- `1.1f`. -/
  meleeRate : F
  /-- `1.3f`. -/
  rangedRate : F

def FloatOps.calculatePct {F : Type} (o : FloatOps F) (base : F) (pct : ℤ) : F :=
  o.div (o.mul base (o.ofInt pct)) (o.ofInt 100)

def FloatOps.addPct {F : Type} (o : FloatOps F) (base : F) (pct : ℤ) : F :=
  o.add base (o.calculatePct base pct)

/-- `SpellInfo`, as the threat of a spell reads it. -/
structure SpellInfo (F : Type) where
  /-- `SPELL_ATTR1_NO_THREAT`. -/
  noThreat : Bool
  /-- `pctMod` of the `SpellThreatEntry`. -/
  pctMod : Option F
  /-- An effect gives energy. -/
  energize : Bool

/-- The units of the map at one moment, as seen from the hating creature. -/
structure World (F : Type) where
  /-- `ObjectAccessor::GetUnit` finds the unit. -/
  getUnit : ℕ → Bool
  /-- The unit is a player in game master mode. -/
  isGameMaster : ℕ → Bool
  isAlive : ℕ → Bool
  /-- `IsInMap` with the creature. -/
  isInMap : ℕ → Bool
  /-- `InSamePhase` with the creature. -/
  inSamePhase : ℕ → Bool
  /-- `UNIT_STATE_IN_FLIGHT`. -/
  inFlight : ℕ → Bool
  /-- `isInAccessiblePlaceFor` the creature. -/
  isInAccessiblePlace : ℕ → Bool
  /-- `IsWithinCombatRange` of the creature. -/
  isWithinCombatRange : ℕ → Bool
  /-- `IsImmunedToDamage`, or an aura that damage would break. -/
  isSecondChoice : ℕ → Bool
  canCreatureAttack : ℕ → Bool
  isWithinMeleeRange : ℕ → Bool
  /-- `GetRedirectThreatPercent`. -/
  redirectThreatPercent : ℕ → ℕ
  /-- `GetRedirectThreatTarget`. -/
  redirectThreatTarget : ℕ → Option ℕ
  /-- `ApplySpellMod` with `SPELLMOD_THREAT`, for the owner of the mods. -/
  applySpellMod : ℕ → F → F
  /-- `ApplyTotalThreatModifier` for a school mask. -/
  applyTotalThreatModifier : ℕ → ℕ → F → F
  /-- `GetCharmerOrOwner`. -/
  charmerOrOwner : ℕ → Option ℕ
  /-- How many masters a unit has above it. -/
  depth : ℕ → ℕ
  /-- No unit is its own master, however far up. -/
  depth_lt : ∀ u v, charmerOrOwner u=some v → depth v < depth u

theorem masterless (_ v : ℕ) (h : (none : Option ℕ)=some v) : 0 < 0 :=
  absurd h.symm (Option.some_ne_none v)

structure HostileReference (F : Type) where
  /-- `iThreat`. -/
  threat : F
  /-- `iUnitGuid`. -/
  unitGuid : ℕ
  /-- `iOnline`. -/
  online : Bool
  /-- `iAccessible`. -/
  accessible : Bool
  /-- `isValid`: the link to the target is there. -/
  valid : Bool
  deriving DecidableEq

/-- The references there are, by their addresses. -/
abbrev References (F : Type) := ℕ → Option (HostileReference F)

structure ThreatContainer where
  /-- `iThreatList`. -/
  threatList : List ℕ
  /-- `iDirty`. -/
  dirty : Bool
  deriving DecidableEq

/-- `ThreatManager` of a creature. -/
structure ThreatManager (F : Type) where
  /-- `iOwner`. -/
  owner : ℕ
  /-- `iCurrentVictim`. -/
  currentVictim : Option ℕ
  /-- `iThreatContainer`. -/
  threatContainer : ThreatContainer
  /-- `iThreatOfflineContainer`. -/
  threatOfflineContainer : ThreatContainer
  references : References F
  nextReference : ℕ

/-- `ThreatManager::ThreatManager`. -/
def ThreatManager.new {F : Type} (owner : ℕ) : ThreatManager F :=
  ⟨owner,none,⟨[],false⟩,⟨[],false⟩,fun _ => none,0⟩

/-- The events of a reference. -/
inductive UNIT_EVENT_TYPE where
  /-- `UEV_THREAT_REF_ONLINE_STATUS`. -/
  | onlineStatus
  /-- `UEV_THREAT_REF_THREAT_CHANGE`. -/
  | threatChange
  /-- `UEV_THREAT_REF_REMOVE_FROM_LIST`. -/
  | removeFromList
  /-- `UEV_THREAT_REF_ASSECCIBLE_STATUS`. -/
  | accessibleStatus
  deriving DecidableEq

section Containers

variable {F : Type}

/-- The reference at an address is for a unit. -/
def References.isFor (refs : References F) (guid r : ℕ) : Bool :=
  (refs r).any fun ref => ref.unitGuid=guid

def ThreatContainer.getReferenceByTarget (c : ThreatContainer) (refs : References F)
    (victim : ℕ) : Option ℕ :=
  c.threatList.find? (refs.isFor victim)

def ThreatContainer.addReference (c : ThreatContainer) (r : ℕ) : ThreatContainer :=
  { c with threatList := c.threatList++[r] }

def ThreatContainer.remove (c : ThreatContainer) (r : ℕ) : ThreatContainer :=
  { c with threatList := c.threatList.filter (·≠r) }

variable [LT F] [LE F] [DecidableLT F] [DecidableLE F] (o : FloatOps F)

def References.getThreat (refs : References F) (r : ℕ) : F :=
  ((refs r).map HostileReference.threat).getD (o.ofInt 0)

def threatOrderPred (refs : References F) (a b : ℕ) : Bool :=
  refs.getThreat o b < refs.getThreat o a

/-- `ThreatContainer::update`. The sort of a list is stable. -/
def ThreatContainer.update (c : ThreatContainer) (refs : References F) : ThreatContainer :=
  if c.dirty ∧ 1 < c.threatList.length then
    ⟨c.threatList.mergeSort fun a b => !threatOrderPred o refs b a,false⟩
  else ⟨c.threatList,false⟩

/-- What a look at a reference decides. -/
inductive Choice where
  /-- The reference is the victim, or the current one stays. -/
  | found (r : ℕ)
  /-- The search goes on. -/
  | goOn

/-- The body of the loop for a target the creature may prefer. -/
def considerVictim (w : World F) (refs : References F) (currentVictim : Option ℕ)
    (r target : ℕ) : Choice :=
  if w.canCreatureAttack target then
    match currentVictim with
    | none => .found r
    | some v =>
      let mine := refs.getThreat o r
      let least := refs.getThreat o v
      if v=r ∨ mine ≤ o.mul o.meleeRate least then
        if v≠r ∧ (refs v).any fun ref => w.canCreatureAttack ref.unitGuid then .found v
        else .found r
      else if o.add (o.mul o.rangedRate least) (o.ofInt 1) < mine ∨
          (o.add (o.mul o.meleeRate least) (o.ofInt 1) < mine ∧
            w.isWithinMeleeRange target) then .found r
      else .goOn
  else .goOn

/-- The loop once every target is of second choice: the whole list, with no preference. -/
def selectAny (w : World F) (refs : References F) (currentVictim : Option ℕ) :
    List ℕ → Option ℕ
  | [] => none
  | r::rest =>
    match considerVictim o w refs currentVictim r (((refs r).map (·.unitGuid)).getD 0) with
    | .found v => some v
    | .goOn => selectAny w refs currentVictim rest

/-- The loop that passes over targets of second choice, until the last reference is one. -/
def selectPreferred (w : World F) (refs : References F) (whole : List ℕ) :
    Option ℕ → List ℕ → Option ℕ
  | _,[] => none
  | currentVictim,r::rest =>
    let target := ((refs r).map (·.unitGuid)).getD 0
    if w.isSecondChoice target then
      if rest≠[] then
        selectPreferred w refs whole (if currentVictim=some r then none else currentVictim) rest
      else selectAny o w refs currentVictim whole
    else
      match considerVictim o w refs currentVictim r target with
      | .found v => some v
      | .goOn => selectPreferred w refs whole currentVictim rest

def ThreatContainer.selectNextVictim (c : ThreatContainer) (w : World F) (refs : References F)
    (currentVictim : Option ℕ) : Option ℕ :=
  selectPreferred o w refs c.threatList currentVictim c.threatList

end Containers

section Manager

variable {F : Type} [LT F] [LE F] [DecidableLT F] [DecidableLE F] (o : FloatOps F)

/-- `!=`, which is true of what is no number. -/
def differ (a b : F) : Bool := !decide (a ≤ b ∧ b ≤ a)

def ThreatManager.setDirty (m : ThreatManager F) (isDirty : Bool) : ThreatManager F :=
  { m with threatContainer := { m.threatContainer with dirty := isDirty } }

def ThreatManager.setCurrentVictim (m : ThreatManager F) (r : Option ℕ) : ThreatManager F :=
  { m with currentVictim := r }

/-- A member of the reference at an address is set. -/
def ThreatManager.setReference (m : ThreatManager F) (r : ℕ) (ref : HostileReference F) :
    ThreatManager F :=
  { m with references := Function.update m.references r (some ref) }

/-- `delete`. -/
def ThreatManager.deleteReference (m : ThreatManager F) (r : ℕ) : ThreatManager F :=
  { m with references := Function.update m.references r none }

/-- `update` of the online container. -/
def ThreatManager.updateContainer (m : ThreatManager F) : ThreatManager F :=
  { m with threatContainer := m.threatContainer.update o m.references }

/-- `getHostilTarget`. The owner is a creature, as `isValidProcess` asserts. -/
def ThreatManager.getHostilTarget (w : World F) (m : ThreatManager F) :
    ThreatManager F×Option ℕ :=
  let m := m.updateContainer o
  let m :=
    match m.threatContainer.selectNextVictim o w m.references m.currentVictim with
    | some nextVictim => m.setCurrentVictim (some nextVictim)
    | none => m
  (m,m.currentVictim.bind fun r => (m.references r).bind fun ref =>
    if ref.valid then some ref.unitGuid else none)

/-- A victim that goes away is forgotten. -/
def ThreatManager.forgetVictim (m : ThreatManager F) (r : ℕ) : ThreatManager F :=
  if m.currentVictim=some r then (m.setCurrentVictim none).setDirty true else m

/-- The `switch` of `processThreatEvent`. -/
def ThreatManager.onEvent (m : ThreatManager F) (r : ℕ) (ref : HostileReference F)
    (fValue : F) : UNIT_EVENT_TYPE → ThreatManager F
  | .threatChange =>
    if (m.currentVictim=some r ∧ fValue ≤ o.ofInt 0) ∨
        (m.currentVictim≠some r ∧ o.ofInt 0 < fValue) then m.setDirty true else m
  | .onlineStatus =>
    if ref.online=false then
      let m := m.forgetVictim r
      { m with
        threatContainer := m.threatContainer.remove r
        threatOfflineContainer := m.threatOfflineContainer.addReference r }
    else
      let m :=
        match m.currentVictim with
        | some v =>
          if o.mul o.meleeRate (m.references.getThreat o v) < ref.threat then m.setDirty true
          else m
        | none => m
      { m with
        threatContainer := m.threatContainer.addReference r
        threatOfflineContainer := m.threatOfflineContainer.remove r }
  | .removeFromList =>
    let m := m.forgetVictim r
    if ref.online then { m with threatContainer := m.threatContainer.remove r }
    else { m with threatOfflineContainer := m.threatOfflineContainer.remove r }
  | .accessibleStatus => m

def ThreatManager.processThreatEvent (w : World F) (m : ThreatManager F)
    (type : UNIT_EVENT_TYPE) (r : ℕ) (fValue : F) : ThreatManager F :=
  match m.references r with
  | none => m
  | some ref =>
    let m := m.onEvent o r ref fValue type
    let old_v := m.currentVictim
    let m := m.updateContainer o
    match m.currentVictim with
    | none => m
    | some v =>
      let guid := (m.references v).map (·.unitGuid)
      if old_v=none ∨ (old_v.bind m.references).map (·.unitGuid)≠guid then
        (m.getHostilTarget o w).1
      else m

def ThreatManager.setAccessibleState (w : World F) (m : ThreatManager F) (r : ℕ)
    (isAccessible : Bool) : ThreatManager F :=
  match m.references r with
  | none => m
  | some ref =>
    if ref.accessible≠isAccessible then
      (m.setReference r { ref with accessible := isAccessible }).processThreatEvent o w
        .accessibleStatus r (o.ofInt 0)
    else m

def ThreatManager.setOnlineOfflineState (w : World F) (m : ThreatManager F) (r : ℕ)
    (isOnline : Bool) : ThreatManager F :=
  match m.references r with
  | none => m
  | some ref =>
    if ref.online≠isOnline then
      let m := m.setReference r { ref with online := isOnline }
      let m := if isOnline=false then m.setAccessibleState o w r false else m
      m.processThreatEvent o w .onlineStatus r (o.ofInt 0)
    else m

/-- The link to a target that was lost is made again. -/
def ThreatManager.relink (w : World F) (m : ThreatManager F) (r : ℕ) : ThreatManager F :=
  match m.references r with
  | none => m
  | some ref =>
    if ref.valid=false ∧ w.getUnit ref.unitGuid then m.setReference r { ref with valid := true }
    else m

/-- What `updateOnlineStatus` makes of a reference: online, and accessible. -/
def World.statusOf (w : World F) (ref : HostileReference F) : Bool×Bool :=
  let target := ref.unitGuid
  if ref.valid ∧ !w.isGameMaster target ∧ !w.inFlight target ∧ w.isInMap target ∧
      w.inSamePhase target then
    if w.isInAccessiblePlace target then (true,true)
    else (w.isWithinCombatRange target,false)
  else (false,false)

def ThreatManager.updateOnlineStatus (w : World F) (m : ThreatManager F) (r : ℕ) :
    ThreatManager F :=
  let m := m.relink w r
  match m.references r with
  | none => m
  | some ref =>
    let (online,accessible) := w.statusOf ref
    let m := m.setAccessibleState o w r accessible
    m.setOnlineOfflineState o w r online

/-- `HostileReference::addThreat`. The threat for a living master of the target is the
function `assist`. -/
def ThreatManager.addReferenceThreat (assist : ℕ → ThreatManager F → ThreatManager F)
    (w : World F) (m : ThreatManager F) (r : ℕ) (modThreat : F) : ThreatManager F :=
  match m.references r with
  | none => m
  | some ref =>
    let m := m.setReference r { ref with threat := o.add ref.threat modThreat }
    let m := if ref.online=false then m.updateOnlineStatus o w r else m
    let isValid := (m.references r).any HostileReference.valid
    let m :=
      if isValid ∧ o.ofInt 0 ≤ modThreat then
        match w.charmerOrOwner ref.unitGuid with
        | some victimOwner => if w.isAlive victimOwner then assist victimOwner m else m
        | none => m
      else m
    if differ modThreat (o.ofInt 0) then m.processThreatEvent o w .threatChange r modThreat else m

/-- `new HostileReference`, put in the online container. -/
def ThreatManager.newReference (m : ThreatManager F) (victim : ℕ) : ThreatManager F :=
  { m with
    references := Function.update m.references m.nextReference
      (some ⟨o.ofInt 0,victim,true,true,true⟩)
    nextReference := m.nextReference+1
    threatContainer := m.threatContainer.addReference m.nextReference }

/-- The reference of a unit, in the online container or else in the other one. -/
def ThreatManager.findReference (m : ThreatManager F) (victim : ℕ) : Option ℕ :=
  (m.threatContainer.getReferenceByTarget m.references victim).or
    (m.threatOfflineContainer.getReferenceByTarget m.references victim)

/-- `_addThreat`, with the threat of a master of the victim as the function `assist`. -/
def ThreatManager.addThreatVia (assist : ℕ → ThreatManager F → ThreatManager F) (w : World F)
    (m : ThreatManager F) (victim : ℕ) (threat : F) : ThreatManager F :=
  match m.findReference victim with
  | some r => m.addReferenceThreat o assist w r threat
  | none =>
    let hostileRef := m.nextReference
    let m := m.newReference o victim
    let m :=
      match m.threatContainer.getReferenceByTarget m.references victim with
      | some r => m.addReferenceThreat o assist w r threat
      | none => m
    if w.isGameMaster victim then m.setOnlineOfflineState o w hostileRef false else m

/-- `_addThreat`. A master stands above its unit, so the chain of masters comes to an end. -/
def ThreatManager.addThreatTo (w : World F) (m : ThreatManager F) (victim : ℕ) (threat : F) :
    ThreatManager F :=
  m.addThreatVia o
    (fun victimOwner m =>
      if w.depth victimOwner < w.depth victim then m.addThreatTo w victimOwner (o.ofInt 1)
      else m) w victim threat
termination_by w.depth victim

def World.calcThreat (w : World F) (hatedUnit : ℕ) (threat : F) (schoolMask : ℕ)
    (threatSpell : Option (SpellInfo F)) : F :=
  match threatSpell with
  | some spell =>
    let threat :=
      match spell.pctMod with
      | some pctMod => if differ pctMod (o.ofInt 1) then o.mul threat pctMod else threat
      | none => threat
    if spell.energize then threat
    else w.applyTotalThreatModifier hatedUnit schoolMask (w.applySpellMod hatedUnit threat)
  | none => w.applyTotalThreatModifier hatedUnit schoolMask threat

def World.isValidProcess (w : World F) (hatedUnit hatingUnit : ℕ)
    (threatSpell : Option (SpellInfo F)) : Bool :=
  hatedUnit≠hatingUnit && !w.isGameMaster hatedUnit && w.isAlive hatedUnit &&
    w.isAlive hatingUnit && w.isInMap hatedUnit && w.inSamePhase hatedUnit &&
    !threatSpell.any SpellInfo.noThreat

def ThreatManager.doAddThreat (w : World F) (m : ThreatManager F) (victim : ℕ) (threat : F) :
    ThreatManager F :=
  let redirectThreatPct := w.redirectThreatPercent victim
  if o.ofInt 0 < threat ∧ redirectThreatPct≠0 then
    match w.redirectThreatTarget victim with
    | some redirectTarget =>
      let redirectThreat := o.calculatePct threat redirectThreatPct
      (m.addThreatTo o w redirectTarget redirectThreat).addThreatTo o w victim
        (o.sub threat redirectThreat)
    | none => m.addThreatTo o w victim threat
  else m.addThreatTo o w victim threat

def ThreatManager.addThreat (w : World F) (m : ThreatManager F) (victim : ℕ) (threat : F)
    (schoolMask : ℕ) (threatSpell : Option (SpellInfo F)) : ThreatManager F :=
  if w.isValidProcess victim m.owner threatSpell then
    m.doAddThreat o w victim (w.calcThreat o victim threat schoolMask threatSpell)
  else m

/-- `modifyThreatPercent`, which looks in the online container only. -/
def ThreatManager.modifyThreatPercent (w : World F) (m : ThreatManager F) (victim : ℕ)
    (percent : ℤ) : ThreatManager F :=
  match m.threatContainer.getReferenceByTarget m.references victim with
  | none => m
  | some r =>
    let iThreat := m.references.getThreat o r
    m.addReferenceThreat o (fun victimOwner m => m.addThreatTo o w victimOwner (o.ofInt 1)) w r
      (o.sub (o.addPct iThreat percent) iThreat)

/-- `ThreatContainer::clearReferences` deletes the references of a container. -/
def clearReferences (refs : References F) (c : ThreatContainer) : References F×ThreatContainer :=
  (c.threatList.foldl (fun refs r => Function.update refs r none) refs,
    { c with threatList := [] })

def ThreatManager.clearReferences (m : ThreatManager F) : ThreatManager F :=
  let (refs,online) := ThreatModel.clearReferences m.references m.threatContainer
  let (refs,offline) := ThreatModel.clearReferences refs m.threatOfflineContainer
  { m with
    references := refs
    threatContainer := online
    threatOfflineContainer := offline
    currentVictim := none }

/-- `invalidate`: the target of a reference is gone. -/
def ThreatManager.invalidate (w : World F) (m : ThreatManager F) (r : ℕ) : ThreatManager F :=
  let m := m.setOnlineOfflineState o w r false
  match m.references r with
  | none => m
  | some ref => m.setReference r { ref with valid := false }

/-- `removeReference`, with the `delete` that follows every call of it. -/
def ThreatManager.removeReference (w : World F) (m : ThreatManager F) (r : ℕ) :
    ThreatManager F :=
  match m.references r with
  | none => m
  | some _ =>
    let m := m.invalidate o w r
    let m := m.processThreatEvent o w .removeFromList r (o.ofInt 0)
    m.deleteReference r

/-- The reference that the unit's own list of haters holds for this manager. -/
def ThreatManager.hatedBy (m : ThreatManager F) (victim : ℕ) : Option ℕ :=
  (m.findReference victim).filter fun r => (m.references r).any HostileReference.valid

/-- What happens to a threat manager. -/
inductive Op (F : Type) where
  | addThreat (victim : ℕ) (threat : F) (schoolMask : ℕ) (threatSpell : Option (SpellInfo F))
  /-- `doAddThreat`, as a unit that is assisted calls it. -/
  | doAddThreat (victim : ℕ) (threat : F)
  | modifyThreatPercent (victim : ℕ) (percent : ℤ)
  | clearReferences
  | getHostilTarget
  /-- The unit adds to its own threat, online or not. -/
  | addReferenceThreat (victim : ℕ) (modThreat : F)
  /-- `updateOnlineStatus`, from the unit. -/
  | updateOnlineStatus (victim : ℕ)
  /-- `setOnlineOfflineState`, from the unit. -/
  | setOnlineOfflineState (victim : ℕ) (isOnline : Bool)
  /-- `invalidate`, from the unit. -/
  | invalidate (victim : ℕ)
  /-- `removeReference`, from the unit. -/
  | removeReference (victim : ℕ)
  /-- `setDirty`, from outside. -/
  | setDirty (isDirty : Bool)

/-- One operation, among the units as they are at that moment. -/
def step (m : ThreatManager F) (a : World F×Op F) : ThreatManager F :=
  let w := a.1
  match a.2 with
  | .addThreat victim threat schoolMask threatSpell =>
    m.addThreat o w victim threat schoolMask threatSpell
  | .doAddThreat victim threat => m.doAddThreat o w victim threat
  | .modifyThreatPercent victim percent => m.modifyThreatPercent o w victim percent
  | .clearReferences => m.clearReferences
  | .getHostilTarget => (m.getHostilTarget o w).1
  | .addReferenceThreat victim modThreat =>
    (m.hatedBy victim).elim m fun r =>
      m.addReferenceThreat o (fun u m => m.addThreatTo o w u (o.ofInt 1)) w r modThreat
  | .updateOnlineStatus victim =>
    (m.hatedBy victim).elim m fun r => m.updateOnlineStatus o w r
  | .setOnlineOfflineState victim isOnline =>
    (m.hatedBy victim).elim m fun r => m.setOnlineOfflineState o w r isOnline
  | .invalidate victim => (m.hatedBy victim).elim m fun r => m.invalidate o w r
  | .removeReference victim => (m.hatedBy victim).elim m fun r => m.removeReference o w r
  | .setDirty isDirty => m.setDirty isDirty

/-- The link of a unit's reference holds, or is made again when the unit is looked for. -/
def ThreatManager.Linked (w : World F) (m : ThreatManager F) (unit : ℕ) : Prop :=
  ∀ r ref,m.references r=some ref → ref.unitGuid=unit → ref.valid=true ∨ w.getUnit unit=true

/-- Who is hated when a unit is given threat: the unit, and for a threat that is not negative its
living master as well. -/
inductive Given (w : World F) (m : ThreatManager F) : ℕ → F → ℕ → Prop
  | unit (victim : ℕ) (threat : F) : Given w m victim threat victim
  | master {victim victimOwner unit : ℕ} {threat : F} (hlinked : m.Linked w victim)
      (hthreat : o.ofInt 0 ≤ threat) (howner : w.charmerOrOwner victim=some victimOwner)
      (halive : w.isAlive victimOwner=true) (hgiven : Given w m victimOwner (o.ofInt 1) unit) :
      Given w m victim threat unit

/-- Who is hated after `doAddThreat`, a part of whose threat may be redirected. -/
def doGiven (w : World F) (m : ThreatManager F) (victim : ℕ) (threat : F) : Set ℕ :=
  let redirectThreatPct := w.redirectThreatPercent victim
  match
    if o.ofInt 0 < threat ∧ redirectThreatPct≠0 then w.redirectThreatTarget victim else none with
  | some redirectTarget =>
    let redirectThreat := o.calculatePct threat redirectThreatPct
    { unit | Given o w m redirectTarget redirectThreat unit ∨
      Given o w m victim (o.sub threat redirectThreat) unit }
  | none => { unit | Given o w m victim threat unit }

/-- Whom an operation gives threat. -/
def givenBy (m : ThreatManager F) (a : World F×Op F) : Set ℕ :=
  let w := a.1
  match a.2 with
  | .addThreat victim threat schoolMask threatSpell =>
    if w.isValidProcess victim m.owner threatSpell then
      doGiven o w m victim (w.calcThreat o victim threat schoolMask threatSpell)
    else ∅
  | .doAddThreat victim threat => doGiven o w m victim threat
  | .modifyThreatPercent victim percent =>
    match m.threatContainer.getReferenceByTarget m.references victim with
    | none => ∅
    | some r =>
      let iThreat := m.references.getThreat o r
      { unit | Given o w m victim (o.sub (o.addPct iThreat percent) iThreat) unit }
  | .addReferenceThreat victim modThreat =>
    if (m.hatedBy victim).isSome then { unit | Given o w m victim modThreat unit } else ∅
  | _ => ∅

/-- A manager, and the units that were given threat and not forgotten since. -/
structure Hating (F : Type) where
  manager : ThreatManager F
  hated : Set ℕ

/-- One operation, with a record of who is given threat and who is forgotten. -/
def recordStep (t : Hating F) (a : World F×Op F) : Hating F :=
  ⟨step o t.manager a,
    match a.2 with
    | .clearReferences => ∅
    | .removeReference victim =>
      if (t.manager.hatedBy victim).isSome then t.hated \ {victim} else t.hated
    | _ => t.hated ∪ givenBy o t.manager a⟩

/-- A manager that nobody was hated by yet. -/
def Hating.new (owner : ℕ) : Hating F := ⟨ThreatManager.new owner,∅⟩

end Manager

end Projectnelth.ThreatModel
