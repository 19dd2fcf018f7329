import Mathlib
import Projectnelth.KeyedTable
import Projectnelth.OrderedMap

/-!
# Action buttons

A player's buttons of the active talent specialization are kept in a map with a mark on what is
to be written, and the table `character_action` has the buttons of all specializations. The
player's guid is left out of the keys, and the specializations, bytes in the source, are numbers.
What is said to the client is outside.
-/

namespace Projectnelth.ActionButtonModel

open KeyedTable OrderedMap

inductive ActionButtonUpdateState
  | ACTIONBUTTON_UNCHANGED
  | ACTIONBUTTON_CHANGED
  | ACTIONBUTTON_NEW
  | ACTIONBUTTON_DELETED
  deriving DecidableEq

open ActionButtonUpdateState

def ACTION_BUTTON_SPELL : UInt8 := 0x00
def ACTION_BUTTON_C : UInt8 := 0x01
def ACTION_BUTTON_EQSET : UInt8 := 0x20
def ACTION_BUTTON_FLYOUT : UInt8 := 0x30
def ACTION_BUTTON_MACRO : UInt8 := 0x40
def ACTION_BUTTON_CMACRO : UInt8 := ACTION_BUTTON_C ||| ACTION_BUTTON_MACRO
def ACTION_BUTTON_ITEM : UInt8 := 0x80

def ACTION_BUTTON_ACTION (x : UInt32) : UInt32 := x &&& 0x00FFFFFF

def ACTION_BUTTON_TYPE (x : UInt32) : UInt8 := ((x &&& 0xFF000000) >>> 24).toUInt8

def MAX_ACTION_BUTTON_ACTION_VALUE : UInt32 := 0x00FFFFFF+1

def MAX_ACTION_BUTTONS : ℕ := 144

/-- A byte. -/
abbrev Button := Fin 256

structure ActionButton where
  packedData : UInt32
  uState : ActionButtonUpdateState

/-- A button as its constructor makes it. -/
instance : Inhabited ActionButton := ⟨⟨0,ACTIONBUTTON_NEW⟩⟩

def ActionButton.GetType (ab : ActionButton) : UInt8 := ACTION_BUTTON_TYPE ab.packedData

def ActionButton.GetAction (ab : ActionButton) : UInt32 := ACTION_BUTTON_ACTION ab.packedData

def ActionButton.SetActionAndType (ab : ActionButton) (action : UInt32) (type : UInt8) :
    ActionButton :=
  let newData := action ||| type.toUInt32 <<< 24
  if newData≠ab.packedData || ab.uState=ACTIONBUTTON_DELETED then
    ⟨newData,if ab.uState≠ACTIONBUTTON_NEW then ACTIONBUTTON_CHANGED else ab.uState⟩
  else ab

/-- What a check of a button reads. -/
structure Env where
  GetSpellInfo : UInt32 → Bool
  HasSpell : UInt32 → Bool
  GetItemTemplate : UInt32 → Bool

def Env.IsActionButtonDataValid (e : Env) (button : Button) (action : UInt32) (type : UInt8) :
    Bool :=
  if button.val ≥ MAX_ACTION_BUTTONS then false
  else if action ≥ MAX_ACTION_BUTTON_ACTION_VALUE then false
  else if type=ACTION_BUTTON_SPELL then e.GetSpellInfo action && e.HasSpell action
  else if type=ACTION_BUTTON_ITEM then e.GetItemTemplate action
  else [ACTION_BUTTON_FLYOUT,ACTION_BUTTON_C,ACTION_BUTTON_CMACRO,ACTION_BUTTON_MACRO,
    ACTION_BUTTON_EQSET].contains type

/-- The specialization and the button of a row. -/
abbrev Key := ℕ×Button

/-- The action and the type of a row. -/
abbrev Row := UInt32×UInt8

/-- `ActionButtonList`, in the order of the buttons. -/
abbrev ActionButtonList := List (Button×ActionButton)

structure Player where
  m_actionButtons : ActionButtonList
  activeSpec : ℕ
  specsCount : ℕ

namespace Player

/-- The player after `addActionButton`, unless it returns `NULL`. -/
def addActionButton (p : Player) (e : Env) (button : Button) (action : UInt32) (type : UInt8) :
    Option Player :=
  if e.IsActionButtonDataValid button action type then
    some
      { p with
        m_actionButtons :=
          write button ((index button p.m_actionButtons).SetActionAndType action type)
            p.m_actionButtons }
  else none

def removeActionButton (p : Player) (button : Button) : Player :=
  match find button p.m_actionButtons with
  | none => p
  | some ab =>
    match ab.uState with
    | ACTIONBUTTON_DELETED => p
    | ACTIONBUTTON_NEW =>
      { p with m_actionButtons := KeyedList.remove Prod.fst button p.m_actionButtons }
    | _ =>
      { p with
        m_actionButtons :=
          write button { ab with uState := ACTIONBUTTON_DELETED } p.m_actionButtons }

/-- `HandleSetActionButtonOpcode`. -/
def handleSetActionButtonOpcode (p : Player) (e : Env) (button : Button) (packetData : UInt32) :
    Player :=
  if packetData=0 then p.removeActionButton button
  else
    (p.addActionButton e button (ACTION_BUTTON_ACTION packetData)
      (ACTION_BUTTON_TYPE packetData)).getD p

/-- The loop of `_SaveActions`: the statements and what stays in the map. -/
def saveActions (spec : ℕ) : ActionButtonList → List (Statement Key Row)×ActionButtonList
  | [] => ([],[])
  | (button,ab)::rest =>
    let saved := saveActions spec rest
    match ab.uState with
    | ACTIONBUTTON_NEW =>
      (.insert (spec,button) (ab.GetAction,ab.GetType)::saved.1,
        (button,{ ab with uState := ACTIONBUTTON_UNCHANGED })::saved.2)
    | ACTIONBUTTON_CHANGED =>
      (.update (spec,button) (fun _ => (ab.GetAction,ab.GetType))::saved.1,
        (button,{ ab with uState := ACTIONBUTTON_UNCHANGED })::saved.2)
    | ACTIONBUTTON_DELETED => (.delete (fun key => key=(spec,button))::saved.1,saved.2)
    | ACTIONBUTTON_UNCHANGED => (saved.1,(button,ab)::saved.2)

/-- The statements of `_SaveActions`. -/
def saveStatements (p : Player) : List (Statement Key Row) :=
  (saveActions p.activeSpec p.m_actionButtons).1

/-- The player after `_SaveActions`. -/
def _SaveActions (p : Player) : Player :=
  { p with m_actionButtons := (saveActions p.activeSpec p.m_actionButtons).2 }

/-- A row of `_LoadActions`: a button that is not valid is marked to be deleted. -/
def loadAction (e : Env) (p : Player) (row : Button×Row) : Player :=
  match p.addActionButton e row.1 row.2.1 row.2.2 with
  | some q =>
    { q with
      m_actionButtons :=
        write row.1
          { index row.1 q.m_actionButtons with uState := ACTIONBUTTON_UNCHANGED }
          q.m_actionButtons }
  | none =>
    { p with
      m_actionButtons :=
        write row.1
          { index row.1 p.m_actionButtons with uState := ACTIONBUTTON_DELETED }
          p.m_actionButtons }

def _LoadActions (p : Player) (e : Env) (result : List (Button×Row)) : Player :=
  result.foldl (loadAction e) { p with m_actionButtons := [] }

end Player

/-- The rows of a specialization, in the order of the key. -/
def selectSpec (rows : Rows Key Row) (spec : ℕ) : List (Button×Row) :=
  (List.finRange 256).filterMap fun button =>
    (rows (spec,button)).map fun row => (button,row)

/-- A player in the world and the table. -/
structure World where
  player : Player
  rows : Rows Key Row

namespace World

/-- A transaction with what `_SaveActions` appends before the later statements. -/
def save (w : World) (later : Player → List (Statement Key Row)) : World :=
  ⟨w.player._SaveActions,
    commit (w.player.saveStatements++later w.player._SaveActions) w.rows⟩

/-- `ActivateSpec`: without rows of the new specialization nothing is loaded. -/
def activateSpec (w : World) (e : Env) (spec : ℕ) : World :=
  if w.player.activeSpec=spec then w
  else if spec > w.player.specsCount then w
  else
    let saved := w.save fun _ => []
    let p := { saved.player with activeSpec := spec }
    match selectSpec saved.rows spec with
    | [] => ⟨p,saved.rows⟩
    | result => ⟨p._LoadActions e result,saved.rows⟩

/-- `UpdateSpecCount`. -/
def updateSpecCount (w : World) (e : Env) (count : ℕ) : World :=
  let curCount := w.player.specsCount
  if curCount=count then w
  else
    let w := if w.player.activeSpec ≥ count then w.activateSpec e 0 else w
    let w :=
      if count > curCount then
        w.save fun p =>
          p.m_actionButtons.map fun x => .insert (1,x.1) (x.2.GetAction,x.2.GetType)
      else w.save fun p => [.delete fun key => key.1≠p.activeSpec]
    { w with player := { w.player with specsCount := count } }

/-- `SaveToDB`, the player's logout and his next login. -/
def relog (w : World) (e : Env) : World :=
  let saved := w.save fun _ => []
  ⟨saved.player._LoadActions e (selectSpec saved.rows saved.player.activeSpec),saved.rows⟩

end World

/-- What can happen to the buttons. -/
inductive Action
  /-- `HandleSetActionButtonOpcode`. -/
  | set (e : Env) (button : Button) (packetData : UInt32)
  | save
  | relog (e : Env)
  | activateSpec (e : Env) (spec : ℕ)
  | updateSpecCount (e : Env) (count : ℕ)

def World.step (w : World) : Action → World
  | .set e button packetData =>
    { w with player := w.player.handleSetActionButtonOpcode e button packetData }
  | .save => w.save fun _ => []
  | .relog e => w.relog e
  | .activateSpec e spec => w.activateSpec e spec
  | .updateSpecCount e count => w.updateSpecCount e count

end Projectnelth.ActionButtonModel
