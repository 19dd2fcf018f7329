import Mathlib
import Projectnelth.GroupModel

/-!
# Group loot rolls

The members of a group near a corpse or a chest roll for what lies in it. A roll keeps
the vote of each player beside three counters of them, and blocks its item until it is
decided. Who is allowed an item, who is found in the world and what the dice show is
given with each operation; the outcomes that are announced are kept, and so are the rolls that
are dropped with the group.
-/

namespace Projectnelth.GroupLootModel

inductive RollVote where
  | pass
  | need
  | greed
  | disenchant
  | notEmitedYet
  | notValid
  deriving DecidableEq

/-- `LootItem`, with what the rolls read and write of it. -/
structure LootItem where
  itemid : UInt32
  count : UInt32
  freeforall : Bool
  follow_loot_rules : Bool
  is_looted : Bool
  is_blocked : Bool
  is_underthreshold : Bool
  deriving DecidableEq

structure Loot where
  items : List LootItem
  quest_items : List LootItem
  unlootedCount : UInt8
  deriving DecidableEq

/-- `PlayerVote`: the votes by the players, in the order of the players. -/
abbrev PlayerVote := List (UInt64×RollVote)

/-- `Roll`, with the number of its loot. -/
structure Roll where
  itemGUID : ℕ
  /-- The loot that `getLoot` leads to while it is there. -/
  loot : ℕ
  itemSlot : ℕ
  playerVote : PlayerVote
  totalPlayersRolling : UInt8
  totalNeed : UInt8
  totalGreed : UInt8
  totalPass : UInt8
  deriving DecidableEq

/-- The outcome of a roll, as it is announced. -/
structure Verdict where
  roll : Roll
  /-- Whether the timer of the roll has ended. -/
  timer : Bool
  /-- What each player has rolled. -/
  dice : UInt64 → ℕ
  winner : Option UInt64
  /-- Whether the winner is found in the world. -/
  present : Bool
  isLFRGroup : Bool

/-- A group with its rolls, and the loots they are about. -/
structure GroupRolls where
  /-- The group, until it is disbanded. -/
  group : Option GroupModel.Group
  /-- `RollId`. -/
  rolls : List Roll
  loots : ℕ → Option Loot
  filled : ℕ → Option Loot
  nextLoot : ℕ
  /-- The outcomes so far. -/
  verdicts : List Verdict
  dropped : List Roll

/-- The world around the start of the rolls for a loot. -/
structure LootWorld where
  /-- The quality of an item template, if there is one. -/
  quality : UInt32 → Option UInt32
  /-- `m_lootThreshold`. -/
  lootThreshold : UInt32
  /-- `m_memberMgr`: the members that are logged in. -/
  members : List UInt64
  /-- Each member is linked once. -/
  distinct : members.Nodup
  /-- A group has at most 40 members. -/
  size : members.length ≤ 40
  /-- `AllowedForPlayer`. -/
  allowed : LootItem → UInt64 → Bool
  /-- `IsAtGroupRewardDistance`. -/
  near : UInt64 → Bool
  /-- `GetPassOnGroupLoot`. -/
  passOnGroupLoot : UInt64 → Bool
  /-- `GenerateLowGuid(HIGHGUID_ITEM)` for a slot, with the guids of the rolls. -/
  itemGuid : List ℕ → ℕ → ℕ
  /-- A new guid or that of a deleted item is drawn, which no roll has. -/
  unused : ∀ guids slot,itemGuid guids slot∉guids

/-- The world around votes and outcomes. -/
structure RollWorld where
  /-- `FindPlayer` finds the player, with a session. -/
  findPlayer : UInt64 → Bool
  hasPendingBind : UInt64 → Bool
  /-- `CanStoreNewItem` of so many of an item. -/
  canStoreNewItem : UInt64 → UInt32 → UInt32 → Bool
  /-- What `urand(1, 100)` gives for a player in a roll, less one. -/
  urand : ℕ → UInt64 → Fin 100

/-- `playerVote[guid] = vote`. -/
def assign (guid : UInt64) (vote : RollVote) : PlayerVote → PlayerVote
  | [] => [(guid,vote)]
  | entry::rest =>
    if guid < entry.1 then (guid,vote)::entry::rest
    else if guid=entry.1 then (guid,vote)::rest
    else entry::assign guid vote rest

/-- The item in a slot: the quest items come after the others. -/
def itemAt (loot : Loot) (slot : ℕ) : Option LootItem :=
  if slot ≥ loot.items.length then loot.quest_items[slot-loot.items.length]?
  else loot.items[slot]?

/-- A write to the item in a slot. -/
def modifyItem (loot : Loot) (slot : ℕ) (f : LootItem → LootItem) : Loot :=
  if slot ≥ loot.items.length then
    { loot with quest_items := loot.quest_items.modify (slot-loot.items.length) f }
  else { loot with items := loot.items.modify slot f }

/-- A write to the item of a roll, if its loot is there. -/
def writeItem (s : GroupRolls) (loot slot : ℕ) (f : LootItem → LootItem) : GroupRolls :=
  { s with
    loots := Function.update s.loots loot ((s.loots loot).map fun l => modifyItem l slot f) }

/-- A player takes part in a roll. -/
def enter (w : LootWorld) (autoPass : Bool) (roll : Roll) (guid : UInt64) : Roll :=
  if autoPass && w.passOnGroupLoot guid then
    { roll with
      totalPlayersRolling := roll.totalPlayersRolling+1
      playerVote := assign guid .pass roll.playerVote
      totalPass := roll.totalPass+1 }
  else
    { roll with
      totalPlayersRolling := roll.totalPlayersRolling+1
      playerVote := assign guid .notEmitedYet roll.playerVote }

/-- The players that take part in a roll for an item. -/
def eligible (w : LootWorld) (item : LootItem) : List UInt64 :=
  w.members.filter fun guid => w.allowed item guid && w.near guid

/-- A new roll with all who take part in it. -/
def newRoll (w : LootWorld) (autoPass : Bool) (itemGUID loot slot : ℕ) (item : LootItem) : Roll :=
  (eligible w item).foldl (enter w autoPass)
    { itemGUID := itemGUID
      loot := loot
      itemSlot := slot
      playerVote := []
      totalPlayersRolling := 0
      totalNeed := 0
      totalGreed := 0
      totalPass := 0 }

/-- A roll is started if somebody takes part in it. -/
def startRoll (w : LootWorld) (autoPass : Bool) (loot slot : ℕ) (item : LootItem)
    (s : GroupRolls) : GroupRolls :=
  let roll := newRoll w autoPass (w.itemGuid (s.rolls.map Roll.itemGUID) slot) loot slot item
  if roll.totalPlayersRolling > 0 then
    let blocked := writeItem s loot slot fun item => { item with is_blocked := true }
    { blocked with rolls := blocked.rolls++[roll] }
  else s

/-- What is done with an item that is not for a quest. -/
def rollItem (w : LootWorld) (loot : ℕ) (s : GroupRolls) (entry : LootItem×ℕ) : GroupRolls :=
  if entry.1.freeforall then s
  else
    match w.quality entry.1.itemid with
    | none => s
    | some quality =>
      if quality ≥ w.lootThreshold then startRoll w true loot entry.2 entry.1 s
      else writeItem s loot entry.2 fun item => { item with is_underthreshold := true }

/-- What is done with an item for a quest. -/
def rollQuestItem (w : LootWorld) (loot : ℕ) (s : GroupRolls) (entry : LootItem×ℕ) : GroupRolls :=
  if !entry.1.follow_loot_rules then s
  else
    match w.quality entry.1.itemid with
    | none => s
    | some _ => startRoll w false loot entry.2 entry.1 s

/-- `GroupLoot` of a loot that has just been filled. -/
def groupLoot (w : LootWorld) (s : GroupRolls) (loot : Loot) : GroupRolls :=
  let id := s.nextLoot
  let placed :=
    { s with
      loots := Function.update s.loots id (some loot)
      filled := Function.update s.filled id (some loot)
      nextLoot := id+1 }
  let rolled := (loot.items.zipIdx).foldl (rollItem w id) placed
  (loot.quest_items.zipIdx loot.items.length).foldl (rollQuestItem w id) rolled

/-- `NeedBeforeGreed` differs in what it sends: the masks of the votes. -/
def needBeforeGreed (w : LootWorld) (s : GroupRolls) (loot : Loot) : GroupRolls := groupLoot w s loot

/-- `GetRoll`: the roll of an item whose loot is there. -/
def getRoll (s : GroupRolls) (itemGUID : ℕ) : Option Roll :=
  s.rolls.find? fun roll => decide (roll.itemGUID=itemGUID) && (s.loots roll.loot).isSome

/-- A write to a roll in its place. -/
def putRoll (s : GroupRolls) (roll : Roll) : GroupRolls :=
  { s with rolls := s.rolls.map fun other => if other.itemGUID=roll.itemGUID then roll else other }

/-- A roll is erased. -/
def eraseRoll (s : GroupRolls) (roll : Roll) : GroupRolls :=
  { s with rolls := s.rolls.filter fun other => other.itemGUID≠roll.itemGUID }

/-- The best among the players whose vote counts: the first of the highest. -/
def best (dice : UInt64 → ℕ) (counts : RollVote → Bool) (votes : PlayerVote) :
    UInt64×ℕ×RollVote :=
  votes.foldl
    (fun best entry =>
      if counts entry.2 ∧ best.2.1 < dice entry.1 then (entry.1,dice entry.1,entry.2) else best)
    ((votes.head?.map Prod.fst).getD 0,0,.notValid)

/-- The vote of a player that goes for an item without need. -/
def wants : RollVote → Bool
  | .greed => true
  | .disenchant => true
  | _ => false

/-- The item of a roll is taken by the winner. -/
def takeItem (s : GroupRolls) (roll : Roll) : GroupRolls :=
  let taken := writeItem s roll.loot roll.itemSlot fun item => { item with is_looted := true }
  { taken with
    loots :=
      Function.update taken.loots roll.loot
        ((taken.loots roll.loot).map fun l => { l with unlootedCount := l.unlootedCount-1 }) }

/-- The item of a roll is free for all again. -/
def unblockItem (s : GroupRolls) (roll : Roll) : GroupRolls :=
  writeItem s roll.loot roll.itemSlot fun item => { item with is_blocked := false }

/-- The item of a roll is stored by the winner, or free again. -/
def storeItem (w : RollWorld) (s : GroupRolls) (roll : Roll) (player : UInt64) : GroupRolls :=
  match (s.loots roll.loot).bind fun loot => itemAt loot roll.itemSlot with
  | none => s
  | some item =>
    if w.canStoreNewItem player item.itemid item.count then takeItem s roll else unblockItem s roll

/-- `isLFRGroup` of the group. -/
def isLFRGroup (s : GroupRolls) : Bool :=
  s.group.any fun g => GroupModel.isLFGGroup g && GroupModel.isRaidGroup g

def countTheRoll (w : RollWorld) (s : GroupRolls) (roll : Roll) (timer : Bool) : GroupRolls :=
  if (s.loots roll.loot).isNone then eraseRoll s roll
  else
    let dice := fun guid => (w.urand roll.itemGUID guid).val+1
    let announce := fun (s : GroupRolls) (winner : Option UInt64) (present : Bool) =>
      eraseRoll
        { s with verdicts := s.verdicts++[{ roll := roll, timer := timer, dice := dice,
                                            winner := winner, present := present,
                                            isLFRGroup := isLFRGroup s }] } roll
    if roll.totalNeed > 0 then
      if roll.playerVote=[] then eraseRoll s roll
      else
        let won := best dice (fun vote => decide (vote=.need)) roll.playerVote
        announce (if w.findPlayer won.1 then storeItem w s roll won.1 else s) (some won.1)
          (w.findPlayer won.1)
    else if roll.totalGreed > 0 then
      if roll.playerVote=[] then eraseRoll s roll
      else
        let won := best dice wants roll.playerVote
        announce
          (if w.findPlayer won.1 then
            if won.2.2=.greed then storeItem w s roll won.1
            else if won.2.2=.disenchant then takeItem s roll
            else s
          else s) (some won.1) (w.findPlayer won.1)
    else announce (if isLFRGroup s then s else unblockItem s roll) none false

/-- The vote that is written. -/
def vote (roll : Roll) (playerGUID : UInt64) (vote : RollVote) : PlayerVote :=
  roll.playerVote.map fun entry => if entry.1=playerGUID then (playerGUID,vote) else entry

/-- The choice of a player is counted. -/
def countChoice (roll : Roll) (playerGUID : UInt64) (choice : UInt8) : Roll :=
  if choice=0 then
    { roll with totalPass := roll.totalPass+1, playerVote := vote roll playerGUID .pass }
  else if choice=1 then
    { roll with totalNeed := roll.totalNeed+1, playerVote := vote roll playerGUID .need }
  else if choice=2 then
    { roll with totalGreed := roll.totalGreed+1, playerVote := vote roll playerGUID .greed }
  else if choice=3 then
    { roll with totalGreed := roll.totalGreed+1, playerVote := vote roll playerGUID .disenchant }
  else roll

def MAX_ROLL_TYPE : UInt8 := 4

def countRollVote (w : RollWorld) (s : GroupRolls) (playerGUID : UInt64) (itemGUID : ℕ)
    (choice : UInt8) : GroupRolls :=
  match getRoll s itemGUID with
  | none => s
  | some roll =>
    if roll.playerVote.all fun entry => entry.1≠playerGUID then s
    else if (s.loots roll.loot).any fun loot => loot.items.isEmpty then s
    else if w.hasPendingBind playerGUID then s
    else
      let counted := countChoice roll playerGUID choice
      let s := putRoll s counted
      if counted.totalPass.toNat+counted.totalNeed.toNat+counted.totalGreed.toNat ≥
          counted.totalPlayersRolling.toNat then
        countTheRoll w s counted false
      else s

/-- `EndRoll`: the rolls of a loot are decided one after the other. -/
def endRoll (w : RollWorld) (s : GroupRolls) (loot : ℕ) : GroupRolls :=
  if (s.loots loot).isNone then s
  else (s.rolls.filter fun roll => roll.loot=loot).foldl
    (fun s roll => countTheRoll w s roll true) s

/-- A player leaves a roll. -/
def leaveRoll (guid : UInt64) (roll : Roll) : Roll :=
  match roll.playerVote.find? fun entry => entry.1=guid with
  | none => roll
  | some (_,vote) =>
    { roll with
      totalGreed :=
        if vote=.greed ∨ vote=.disenchant then roll.totalGreed-1 else roll.totalGreed
      totalNeed := if vote=.need then roll.totalNeed-1 else roll.totalNeed
      totalPass := if vote=.pass then roll.totalPass-1 else roll.totalPass
      totalPlayersRolling :=
        if vote≠.notValid then roll.totalPlayersRolling-1 else roll.totalPlayersRolling
      playerVote := roll.playerVote.filter fun entry => entry.1≠guid }

/-- The rolls in `RemoveMember`. -/
def leaveRolls (w : RollWorld) (s : GroupRolls) (guid : UInt64) : GroupRolls :=
  s.rolls.foldl
    (fun s roll =>
      if roll.playerVote.any fun entry => entry.1=guid then
        countRollVote w (putRoll s (leaveRoll guid roll)) guid roll.itemGUID MAX_ROLL_TYPE
      else s) s

/-- `Disband`: the rolls are dropped, and nothing is done about their items. -/
def disband (s : GroupRolls) : GroupRolls :=
  { s with
    group := none
    rolls := []
    dropped := s.dropped++s.rolls }

/-- Who is taken out of the rolls. `RemoveMember` leaves a vote kick to the scripts, and disbands
a group that is too small without a look at its rolls. -/
def leavesRolls (g : GroupModel.Group) : GroupModel.Op → Option UInt64
  | .removeMember _ guid method =>
    if GroupModel.isLFGGroup g ∧ method=GroupModel.RemoveMethod.kick then none
    else if g.memberSlots.length > GroupModel.membersNeeded g then some guid
    else none
  | _ => none

/-- An operation on the group itself, `RemoveMember` among them. -/
def changeGroup (w : RollWorld) (s : GroupRolls) (op : GroupModel.Op) : GroupRolls :=
  match s.group with
  | none => s
  | some g =>
    let s := (leavesRolls g op).elim s (leaveRolls w s)
    match GroupModel.apply g op with
    | none => disband s
    | some left => { s with group := some left }

/-- The operations on a group and its rolls. -/
inductive Op where
  | groupLoot (w : LootWorld) (loot : Loot)
  | needBeforeGreed (w : LootWorld) (loot : Loot)
  | countRollVote (w : RollWorld) (playerGUID : UInt64) (itemGUID : ℕ) (choice : UInt8)
  | changeGroup (w : RollWorld) (op : GroupModel.Op)
  | disband
  | endRoll (w : RollWorld) (loot : ℕ)
  | removeLoot (loot : ℕ)

/-- One operation; a group that is gone starts no rolls. -/
def step (s : GroupRolls) : Op → GroupRolls
  | .groupLoot w loot => if s.group.isSome then groupLoot w s loot else s
  | .needBeforeGreed w loot => if s.group.isSome then needBeforeGreed w s loot else s
  | .countRollVote w playerGUID itemGUID choice => countRollVote w s playerGUID itemGUID choice
  | .changeGroup w op => changeGroup w s op
  | .disband => disband s
  | .endRoll w loot => endRoll w s loot
  -- a loot that is cleared takes the links of its rolls with it
  | .removeLoot loot => { s with loots := Function.update s.loots loot none }

/-- A group without rolls. -/
def noRolls (group : GroupModel.Group) : GroupRolls :=
  { group := some group
    rolls := []
    loots := fun _ => none
    filled := fun _ => none
    nextLoot := 0
    verdicts := []
    dropped := [] }

end Projectnelth.GroupLootModel
