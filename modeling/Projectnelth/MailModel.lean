import Mathlib
import Projectnelth.KeyedList
import Projectnelth.PlayerMoney

/-!
# The mail

Sending, taking, deleting and returning of mails by players who are no game masters,
with the money and the items that these move. Who is online, the accounts, what can be
stored and the configuration are given with each operation. Subjects, bodies, expiry
and logs are left out; the mails of a receiver and the items inside them are those of
the database, which a loaded mailbox holds as well.
-/

namespace Projectnelth.MailModel

open KeyedList PlayerMoney

def MAX_MAIL_ITEMS : ℕ := 12

/-- An item, with what the mail handlers read of it. -/
structure Item where
  /-- `GetGUIDLow`. -/
  guid : ℕ
  /-- `ITEM_PROTO_FLAG_BIND_TO_ACCOUNT`. -/
  bindToAccount : Bool
  /-- `CanBeTraded(true)`. -/
  canBeTraded : Bool
  /-- `IsBoundAccountWide`. -/
  boundAccountWide : Bool
  /-- `IsSoulBound`. -/
  soulBound : Bool
  /-- `ITEM_PROTO_FLAG_CONJURED`. -/
  conjured : Bool
  /-- `ITEM_FIELD_DURATION`. -/
  duration : UInt32
  /-- `ITEM_FLAG_WRAPPED`. -/
  wrapped : Bool
  /-- `IsNotEmptyBag`. -/
  notEmptyBag : Bool
  deriving DecidableEq

inductive MailMessageType where
  | normal
  | auction
  | creature
  | gameobject
  | calendar
  deriving DecidableEq

/-- `MailStationery`; the ones for feasts are one here. -/
inductive MailStationery where
  | test
  | default
  | gm
  | auction
  | feast
  deriving DecidableEq

inductive MailState where
  | unchanged
  | changed
  | deleted
  deriving DecidableEq

structure Mail where
  messageID : ℕ
  messageType : MailMessageType
  stationery : MailStationery
  sender : UInt32
  receiver : UInt32
  /-- The `item_guid`s of `items`. -/
  items : List ℕ
  deliver_time : ℕ
  money : UInt64
  COD : UInt64
  state : MailState
  deriving DecidableEq

/-- The players with their items and mails. -/
structure Post where
  /-- `GetMoney()` of the players. -/
  money : UInt32 → UInt64
  inventory : List (UInt32×Item)
  /-- The mails of all receivers, the last one first. -/
  mails : List Mail
  /-- `mMitems` of the receivers. -/
  mItems : UInt32 → List Item
  mailId : ℕ

/-- The world around an operation. -/
structure World where
  /-- `FindPlayer` finds the player. -/
  online : UInt32 → Bool
  /-- `GetPlayerAccountIdByGUID`. -/
  account : UInt32 → UInt32
  level : UInt32 → ℕ
  team : UInt32 → ℕ
  /-- The sender's guild has the perk and the receiver in it. -/
  guildMail : UInt32 → UInt32 → Bool
  /-- `CONFIG_MAIL_LEVEL_REQ`. -/
  mailLevelReq : ℕ
  /-- `CONFIG_ALLOW_TWO_SIDE_INTERACTION_MAIL`. -/
  twoSideMail : Bool
  /-- `CONFIG_MAIL_DELIVERY_DELAY`. -/
  mailDeliveryDelay : ℕ
  now : ℕ
  /-- A mailbox is within reach. -/
  canInteract : UInt32 → Bool
  /-- `m_mailsLoaded`. -/
  mailsLoaded : UInt32 → Bool
  /-- `CanStoreItem` finds a place. -/
  canStoreItem : UInt32 → Item → Bool
  /-- `StoreItem` merges the item into other stacks. -/
  merges : UInt32 → Item → Bool

/-- The player is online or has an account. -/
def receiverExists (w : World) (player : UInt32) : Bool := w.online player || w.account player != 0

/-- The place of an item among those of the players. -/
def itemKey (held : UInt32×Item) : UInt32×ℕ := (held.1,held.2.guid)

def getItemByGuid (s : Post) (player : UInt32) (guid : ℕ) : Option Item :=
  (lookup itemKey (player,guid) s.inventory).map Prod.snd

/-- `MoveItemFromInventory`; an item that has been moved has no place any more. -/
def moveItemFromInventory (s : Post) (player : UInt32) (item : Item) : Post :=
  { s with inventory := remove itemKey (player,item.guid) s.inventory }

/-- `MoveItemToInventory`: an item that is merged is a part of other stacks then. -/
def moveItemToInventory (w : World) (s : Post) (player : UInt32) (item : Item) : Post :=
  if w.merges player item then s else { s with inventory := s.inventory++[(player,item)] }

/-- The place of a mail among those of the receivers. -/
def mailKey (mail : Mail) : UInt32×ℕ := (mail.receiver,mail.messageID)

def getMail (w : World) (s : Post) (player : UInt32) (id : ℕ) : Option Mail :=
  if w.mailsLoaded player then lookup mailKey (player,id) s.mails else none

def removeMail (s : Post) (player : UInt32) (id : ℕ) : Post :=
  { s with mails := remove mailKey (player,id) s.mails }

/-- A write to the fields of a mail. -/
def setMail (s : Post) (mail : Mail) : Post := { s with mails := replace mailKey mail s.mails }

def getMItem (s : Post) (player : UInt32) (guid : ℕ) : Option Item :=
  lookup Item.guid guid (s.mItems player)

/-- A write to the key of an item in a map of items. -/
def insertItem (items : List Item) (item : Item) : List Item := put Item.guid item items

def addMItem (s : Post) (player : UInt32) (item : Item) : Post :=
  { s with mItems := Function.update s.mItems player (insertItem (s.mItems player) item) }

def removeMItem (s : Post) (player : UInt32) (guid : ℕ) : Post :=
  { s with mItems := Function.update s.mItems player (remove Item.guid guid (s.mItems player)) }

/-- `_SaveMail`: the deleted mails go and their items with them. -/
def saveMail (s : Post) (player : UInt32) : Post :=
  { s with mails :=
      (s.mails.filter fun mail => !(mail.receiver=player && mail.state=.deleted)).map fun mail =>
        if mail.receiver=player ∧ mail.state=.changed then { mail with state := .unchanged }
        else mail }

structure MailDraft where
  /-- `m_items`. -/
  items : List Item
  /-- `m_money`. -/
  money : UInt64
  /-- `m_COD`. -/
  COD : UInt64

namespace MailDraft

/-- The constructor. -/
def new : MailDraft := ⟨[],0,0⟩

def addItem (draft : MailDraft) (item : Item) : MailDraft :=
  { draft with items := insertItem draft.items item }

def addMoney (draft : MailDraft) (money : UInt64) : MailDraft := { draft with money := money }

/-- `AddCOD`; the parameter has 32 bits. -/
def addCOD (draft : MailDraft) (COD : UInt32) : MailDraft := { draft with COD := COD.toUInt64 }

/-- `SendMailTo`, with the sender of a normal mail. -/
def sendMailTo (w : World) (s : Post) (draft : MailDraft) (receiver sender : UInt32)
    (deliver_delay : ℕ) : Post :=
  let m : Mail := ⟨s.mailId,.normal,.default,sender,receiver,draft.items.map Item.guid,
    w.now+deliver_delay,draft.money,draft.COD,.unchanged⟩
  draft.items.foldl (fun s item => addMItem s receiver item)
    { s with mails := m::s.mails, mailId := s.mailId+1 }

def sendReturnToSender (w : World) (s : Post) (draft : MailDraft) (sender_acc : UInt32)
    (sender_guid receiver_guid : UInt32) : Post :=
  let rc_account := if w.online receiver_guid then 0 else w.account receiver_guid
  if !w.online receiver_guid && rc_account = 0 then s
  else
    let needItemDelay := draft.items≠[] ∧ sender_acc≠rc_account
    sendMailTo w s draft receiver_guid sender_guid
      (if needItemDelay then w.mailDeliveryDelay else 0)

end MailDraft

/-- `cost`, by the number of items in the packet. -/
def postage (itemGUIDs : List ℕ) : UInt32 :=
  if itemGUIDs.length≠0 then 30*UInt32.ofNat itemGUIDs.length else 30

/-- The checks on an item to send. -/
def attachable (w : World) (s : Post) (player rc : UInt32) (COD : UInt64) (guid : ℕ) :
    Option Item :=
  if guid=0 then none
  else match getItemByGuid s player guid with
    | none => none
    | some item =>
      if !item.canBeTraded then none
      else if item.boundAccountWide ∧ item.soulBound ∧ w.account player≠w.account rc then none
      else if item.conjured ∨ item.duration≠0 then none
      else if COD≠0 ∧ item.wrapped then none
      else if item.notEmptyBag then none
      else some item

/-- The items to send. -/
def attachments (w : World) (s : Post) (player rc : UInt32) (COD : UInt64) :
    List ℕ → Option (List Item)
  | [] => some []
  | guid::rest =>
    match attachable w s player rc COD guid with
    | none => none
    | some item => (attachments w s player rc COD rest).map (item::·)

/-- All the items that are found are bound to the account. -/
def accountBound (s : Post) (player : UInt32) (itemGUIDs : List ℕ) : Bool :=
  itemGUIDs.length≠0 &&
  itemGUIDs.all fun guid => (getItemByGuid s player guid).all Item.bindToAccount

/-- `mails_count`, with its 8 bits. -/
def mails_count (s : Post) (rc : UInt32) : ℕ :=
  (s.mails.filter fun mail => mail.receiver=rc).length%256

/-- The items leave the inventory for the draft. -/
def fillDraft (player : UInt32) : Post → MailDraft → List Item → Post×MailDraft
  | s,draft,[] => (s,draft)
  | s,draft,item::rest =>
    fillDraft player (moveItemFromInventory s player item) (draft.addItem item) rest

/-- The delay of a mail. -/
def deliver_delay (w : World) (player rc : UInt32) (itemGUIDs : List ℕ) : ℕ :=
  if w.guildMail player rc then 0
  else if itemGUIDs≠[] ∧ w.account player≠w.account rc then w.mailDeliveryDelay
  else 0

/-- `HandleSendMail`; the flag says that the mail has been sent. The receiver is what
the name stands for, if there is such a player. -/
def handleSendMail (w : World) (s : Post) (player : UInt32) (receiver : Option UInt32)
    (itemGUIDs : List ℕ) (money COD : UInt64) : Post×Bool :=
  if MAX_MAIL_ITEMS < itemGUIDs.length then (s,false)
  else if !w.canInteract player then (s,false)
  else if w.level player < w.mailLevelReq then (s,false)
  else match receiver with
    | none => (s,false)
    | some rc =>
      let reqmoney := (postage itemGUIDs).toUInt64+money
      if player=rc then (s,false)
      else if reqmoney < money then (s,false)
      else if ¬reqmoney ≤ s.money player then (s,false)
      else if 100 < mails_count s rc then (s,false)
      else if !accountBound s player itemGUIDs ∧ !w.twoSideMail ∧ w.team player≠w.team rc then
        (s,false)
      else if w.level rc < w.mailLevelReq then (s,false)
      else match attachments w s player rc COD itemGUIDs with
        | none => (s,false)
        | some items =>
          let paid := { s with
            money :=
              Function.update s.money player (ModifyMoney (s.money player) (-reqmoney.toInt64)).1 }
          let filled := fillDraft player paid .new items
          let COD := if itemGUIDs.length=0 then 0 else COD
          (((filled.2.addMoney money).addCOD COD.toUInt32).sendMailTo w filled.1 rc player
            (deliver_delay w player rc itemGUIDs),true)

def handleMailDelete (w : World) (s : Post) (player : UInt32) (mailId : ℕ) : Post×Bool :=
  if !w.canInteract player then (s,false)
  else match getMail w s player mailId with
    | none => (s,true)
    | some m =>
      if m.COD≠0 then (s,false) else (setMail s { m with state := .deleted },true)

/-- The items of a returned mail leave the table of the player for the draft. -/
def refillDraft (player : UInt32) : Post → MailDraft → List ℕ → Post×MailDraft
  | s,draft,[] => (s,draft)
  | s,draft,guid::rest =>
    let draft := match getMItem s player guid with
      | none => draft
      | some item => draft.addItem item
    refillDraft player (removeMItem s player guid) draft rest

/-- The mail is there, not deleted and delivered. -/
def available (w : World) (m : Mail) : Bool :=
  m.state≠.deleted && m.deliver_time ≤ w.now

def handleMailReturnToSender (w : World) (s : Post) (player : UInt32) (mailId : ℕ) : Post×Bool :=
  if !w.canInteract player then (s,false)
  else match getMail w s player mailId with
    | none => (s,false)
    | some m =>
      if !available w m then (s,false)
      else if m.stationery=.gm ∨ m.sender=0 ∨ m.sender=player then (s,false)
      else
        let removed := removeMail s player mailId
        if m.messageType=.normal ∧ m.sender≠0 then
          let refilled := refillDraft player removed .new m.items
          ((refilled.2.addMoney m.money).sendReturnToSender w refilled.1 (w.account player)
            m.receiver m.sender,true)
        else (removed,true)

/-- The COD of a mail goes to its sender, who gets a mail, from the player. -/
def payCOD (w : World) (s : Post) (player : UInt32) (m : Mail) : Post :=
  if 0 < m.COD then
    let sent :=
      if receiverExists w m.sender then
        (MailDraft.new.addMoney m.COD).sendMailTo w s m.sender m.receiver 0
      else s
    { sent with
      money :=
        Function.update sent.money player
          (ModifyMoney (sent.money player) (-m.COD.toUInt32.toInt32).toInt64).1 }
  else s

def handleMailTakeItem (w : World) (s : Post) (player : UInt32) (mailId itemId : ℕ) : Post×Bool :=
  if !w.canInteract player then (s,false)
  else match getMail w s player mailId with
    | none => (s,false)
    | some m =>
      if !available w m then (s,false)
      else if itemId∉m.items then (s,false)
      else if ¬m.COD ≤ s.money player then (s,false)
      else match getMItem s player itemId with
        | none => (s,false)
        | some it =>
          if !w.canStoreItem player it then (s,false)
          else
            let paid := payCOD w s player m
            let changed :=
              setMail paid { m with items := m.items.erase itemId, COD := 0, state := .changed }
            (saveMail (moveItemToInventory w (removeMItem changed player it.guid) player it) player,
              true)

def handleMailTakeMoney (w : World) (s : Post) (player : UInt32) (mailId : ℕ) (money : UInt64) :
    Post×Bool :=
  if !w.canInteract player then (s,false)
  else match getMail w s player mailId with
    | none => (s,false)
    | some m =>
      if !available w m ∨ 0 < money ∧ m.money≠money then (s,false)
      else
        let modified := ModifyMoney (s.money player) money.toInt64
        if !modified.2 then (s,false)
        else
          let credited := { s with money := Function.update s.money player modified.1 }
          (saveMail (setMail credited { m with money := 0, state := .changed }) player,true)

/-- The operations. -/
inductive MailOp where
  | sendMail (player : UInt32) (receiver : Option UInt32) (itemGUIDs : List ℕ)
    (money COD : UInt64)
  | takeMoney (player : UInt32) (mailId : ℕ) (money : UInt64)
  | takeItem (player : UInt32) (mailId itemId : ℕ)
  | returnToSender (player : UInt32) (mailId : ℕ)
  | delete (player : UInt32) (mailId : ℕ)
  deriving DecidableEq

/-- One operation, and whether it goes through. -/
def apply (w : World) (s : Post) : MailOp → Post×Bool
  | .sendMail player receiver itemGUIDs money COD =>
    handleSendMail w s player receiver itemGUIDs money COD
  | .takeMoney player mailId money => handleMailTakeMoney w s player mailId money
  | .takeItem player mailId itemId => handleMailTakeItem w s player mailId itemId
  | .returnToSender player mailId => handleMailReturnToSender w s player mailId
  | .delete player mailId => handleMailDelete w s player mailId

end Projectnelth.MailModel
