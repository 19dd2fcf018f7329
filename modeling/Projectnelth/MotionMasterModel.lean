import Mathlib
import Projectnelth.ArraySizes

/-!
# MotionMaster

Three slots hold the movement generators of a unit, and the highest one in use moves it. The
generators' callbacks may call any operation again, so an operation is run in turns: each
turn ends where a callback is called, and what is left of the operation waits on a stack
below it. Reading outside the slots, or through a null pointer, is a fault and ends the run.
-/

namespace Projectnelth.MotionMasterModel

/-- `MovementGenerator`: the one shared idle generator, or one that was created. -/
inductive MovementGenerator where
  /-- `si_idleMovement`. -/
  | idle
  /-- A generator made by `new`. -/
  | created (n : ℕ)
  deriving DecidableEq

def isStatic (mv : MovementGenerator) : Bool := mv=.idle

abbrev MovementSlot := Fin 3

def MOTION_SLOT_IDLE : MovementSlot := 0
def MOTION_SLOT_ACTIVE : MovementSlot := 1
def MOTION_SLOT_CONTROLLED : MovementSlot := 2

/-- The callbacks of a generator. -/
inductive Callback where
  /-- `Initialize`. -/
  | initial
  | reset
  | update
  /-- `Finalize`, in `DirectDelete`. -/
  | finalize
  deriving DecidableEq

/-- What waits on the stack: a callback that runs, or the rest of a function. -/
inductive Frame where
  /-- A callback of a generator. -/
  | callback (c : Callback) (g : MovementGenerator)
  /-- `Initialize`, from its loop on. -/
  | initLoop
  /-- `Mutate`, once the slot is empty. -/
  | mutate (m : MovementGenerator) (slot : MovementSlot)
  /-- `DirectClean`, from its loop on. -/
  | directClean (reset : Bool)
  /-- `DirectExpire`, after its `DirectDelete`. -/
  | directExpire (reset : Bool)
  /-- `InitTop`, after the `Initialize`. -/
  | initTop
  /-- `UpdateMotion`, after the `Update`. -/
  | update (g : MovementGenerator)
  /-- `UpdateMotion`, at its look at `_expList`. -/
  | expire
  /-- `UpdateMotion`, in its loop over `_expList`. -/
  | expList (i : ℕ)
  /-- `UpdateMotion`, where it clears `MMCF_RESET`. -/
  | resetFlag
  deriving DecidableEq

/-- What a run can end with. -/
inductive Fault where
  /-- `Impl` or `_needInit` is read outside its slots. -/
  | outOfRange
  /-- A null pointer is followed. -/
  | nullPointer
  /-- `ASSERT(!empty())`. -/
  | assertion
  deriving DecidableEq

/-- `MotionMaster`, with the calls in progress. -/
structure MotionMaster where
  impl : MovementSlot → Option MovementGenerator
  top : ℤ
  needInit : MovementSlot → Bool
  /-- `MMCF_UPDATE`. -/
  updateFlag : Bool
  /-- `MMCF_RESET`. -/
  resetFlag : Bool
  expList : Option (List MovementGenerator)
  /-- `selectMovementGenerator` makes a generator for the owner. -/
  selects : Bool
  /-- The calls in progress, the innermost first. -/
  stack : List Frame
  /-- What the last `Update` returned. -/
  result : Bool
  /-- How many generators were created. -/
  generators : ℕ
  /-- The generators whose `Finalize` was called. -/
  finalized : List MovementGenerator
  deleted : List MovementGenerator
  /-- What ended the run. -/
  fault : Option Fault

/-- `MotionMaster::MotionMaster`. -/
def MotionMaster.new (selects : Bool) : MotionMaster :=
  ⟨fun _ => none,-1,fun _ => true,false,false,none,selects,[],false,0,[],[],none⟩

namespace MotionMaster

/-- A slot, as an index into the arrays. -/
def slotAt (i : ℤ) : Except Fault MovementSlot :=
  if h : 0 ≤ i ∧ i < 3 then .ok ⟨i.toNat,by omega⟩ else .error .outOfRange

def empty (mm : MotionMaster) : Bool := mm.top < 0

def size (mm : MotionMaster) : ℤ := mm.top+1

/-- `top`. -/
def topGen (mm : MotionMaster) : Except Fault (Option MovementGenerator) := do
  let s←slotAt mm.top
  return mm.impl s

/-- `top`, where it is followed. -/
def topPointer (mm : MotionMaster) : Except Fault MovementGenerator := do
  match ←mm.topGen with
  | some g => return g
  | none => throw .nullPointer

def needInitTop (mm : MotionMaster) : Except Fault Bool := do
  let s←slotAt mm.top
  return mm.needInit s

/-- `while (!top()) --_top`, with `_top` one below the number. -/
def descend (mm : MotionMaster) : ℕ → Except Fault MotionMaster
  | 0 => .error .outOfRange
  | n+1 =>
    if h : n < 3 then
      if (mm.impl ⟨n,h⟩).isSome then .ok { mm with top := n } else mm.descend n
    else .error .outOfRange

def pop (mm : MotionMaster) : Except Fault MotionMaster := do
  let s←slotAt mm.top
  let mm := { mm with impl := Function.update mm.impl s none }
  mm.descend mm.size.toNat

/-- What is left of a function waits. -/
def push (mm : MotionMaster) (f : Frame) : MotionMaster := { mm with stack := f::mm.stack }

/-- `DirectDelete`, up to the callback; the `delete` comes when it returns. -/
def directDelete (mm : MotionMaster) (curr : Option MovementGenerator) :
    Except Fault MotionMaster :=
  match curr with
  | none => .error .nullPointer
  | some g =>
    if isStatic g then .ok mm
    else .ok { mm.push (.callback .finalize g) with finalized := g::mm.finalized }

def delayedDelete (mm : MotionMaster) (curr : Option MovementGenerator) :
    Except Fault MotionMaster :=
  match curr with
  | none => .error .nullPointer
  | some g =>
    if isStatic g then .ok mm else .ok { mm with expList := some (mm.expList.getD []++[g]) }

/-- `Mutate`, up to where the slot is empty. -/
def mutate (mm : MotionMaster) (m : MovementGenerator) (slot : MovementSlot) :
    Except Fault MotionMaster :=
  match mm.impl slot with
  | some curr =>
    let mm : MotionMaster :=
      { mm.push (.mutate m slot) with impl := Function.update mm.impl slot none }
    if mm.top=slot.val ∧ mm.updateFlag then mm.delayedDelete (some curr)
    else mm.directDelete (some curr)
  | none => .ok { mm.push (.mutate m slot) with top := max mm.top slot.val }

/-- `Mutate`, once the slot is empty. -/
def mutateSlot (mm : MotionMaster) (m : MovementGenerator) (slot : MovementSlot) :
    MotionMaster :=
  let mm := { mm with impl := Function.update mm.impl slot (some m) }
  if (slot.val : ℤ) < mm.top then { mm with needInit := Function.update mm.needInit slot true }
  else
    { mm with needInit := Function.update mm.needInit slot false }.push (.callback .initial m)

/-- A `new` generator is made. -/
def create (mm : MotionMaster) : MotionMaster := { mm with generators := mm.generators+1 }

/-- A Move call: `Mutate` with a new generator. -/
def move (mm : MotionMaster) (slot : MovementSlot) : Except Fault MotionMaster :=
  mm.create.mutate (.created mm.generators) slot

def initDefault (mm : MotionMaster) : Except Fault MotionMaster :=
  if mm.selects then mm.move MOTION_SLOT_IDLE else mm.mutate .idle MOTION_SLOT_IDLE

/-- `Initialize`, from its loop on. -/
def initialMove (mm : MotionMaster) : Except Fault MotionMaster :=
  if mm.empty then mm.initDefault
  else do
    let curr←mm.topGen
    let mm←mm.pop
    let mm := mm.push .initLoop
    if curr.isSome then mm.directDelete curr else return mm

/-- `InitTop`, up to the callback. -/
def initTop (mm : MotionMaster) : Except Fault MotionMaster := do
  let g←mm.topPointer
  return (mm.push .initTop).push (.callback .initial g)

/-- `top()->Reset`. -/
def resetTop (mm : MotionMaster) : Except Fault MotionMaster := do
  let g←mm.topPointer
  return mm.push (.callback .reset g)

/-- `DirectClean`, from its loop on. -/
def directClean (mm : MotionMaster) (reset : Bool) : Except Fault MotionMaster :=
  if 1 < mm.size then do
    let curr←mm.topGen
    let mm←mm.pop
    let mm := mm.push (.directClean reset)
    if curr.isSome then mm.directDelete curr else return mm
  else do
    if ←mm.needInitTop then mm.initTop
    else if reset then mm.resetTop
    else return mm

/-- `DelayedClean`, for at most the given number of turns. -/
def delayedClean (mm : MotionMaster) : ℕ → Except Fault MotionMaster
  | 0 => return mm
  | n+1 =>
    if 1 < mm.size then do
      let curr←mm.topGen
      let mm←mm.pop
      let mm←if curr.isSome then mm.delayedDelete curr else pure mm
      mm.delayedClean n
    else return mm

def clear (mm : MotionMaster) (reset : Bool) : Except Fault MotionMaster :=
  if mm.updateFlag then { mm with resetFlag := reset }.delayedClean mm.size.toNat
  else mm.directClean reset

/-- `DirectExpire`, up to its `DirectDelete`. -/
def directExpire (mm : MotionMaster) (reset : Bool) : Except Fault MotionMaster :=
  if 1 < mm.size then do
    let curr←mm.topGen
    let mm←mm.pop
    (mm.push (.directExpire reset)).directDelete curr
  else return mm.push (.directExpire reset)

/-- `DirectExpire`, after its `DirectDelete`. -/
def directExpireEnd (mm : MotionMaster) (reset : Bool) : Except Fault MotionMaster := do
  let mm←mm.descend mm.size.toNat
  if mm.empty then mm.initialMove
  else if ←mm.needInitTop then mm.initTop
  else if reset then mm.resetTop
  else return mm

def delayedExpire (mm : MotionMaster) : Except Fault MotionMaster := do
  let mm←
    if 1 < mm.size then do
      let curr←mm.topGen
      let mm←mm.pop
      mm.delayedDelete curr
    else pure mm
  mm.descend mm.size.toNat

def movementExpired (mm : MotionMaster) (reset : Bool) : Except Fault MotionMaster :=
  if mm.updateFlag then { mm with resetFlag := reset }.delayedExpire
  else mm.directExpire reset

def moveIdle (mm : MotionMaster) : Except Fault MotionMaster := do
  if mm.empty then mm.mutate .idle MOTION_SLOT_IDLE
  else if (←mm.topGen)=some .idle then return mm
  else mm.mutate .idle MOTION_SLOT_IDLE

/-- `UpdateMotion`, up to the `Update`. A unit that is rooted or stunned does not move. -/
def updateMotion (mm : MotionMaster) (stopped : Bool) : Except Fault MotionMaster :=
  if stopped then return mm
  else if mm.empty then throw .assertion
  else do
    let mm := { mm with updateFlag := true }
    let g←mm.topPointer
    return (mm.push (.update g)).push (.callback .update g)

/-- `UpdateMotion`, after the `Update`. -/
def updateMotionEnd (mm : MotionMaster) : Except Fault MotionMaster :=
  let mm := { mm with updateFlag := false }.push .expire
  if mm.result then return mm else mm.movementExpired true

/-- `UpdateMotion`, in its loop over `_expList` and after it. -/
def deleteExpired (mm : MotionMaster) (i : ℕ) : Except Fault MotionMaster :=
  match mm.expList with
  | none => .error .nullPointer
  | some expired =>
    if h : i < expired.length then
      (mm.push (.expList (i+1))).directDelete (some (expired.get ⟨i,h⟩))
    else do
      let mm := { mm with expList := none }.push .resetFlag
      if mm.empty then mm.initialMove
      else if ←mm.needInitTop then mm.initTop
      else if mm.resetFlag then mm.resetTop
      else return mm

/-- The rest of a function that waited. -/
def resume (mm : MotionMaster) : Frame → Except Fault MotionMaster
  | .callback _ _ => return mm
  | .initLoop => mm.initialMove
  | .mutate m slot => return mm.mutateSlot m slot
  | .directClean reset => mm.directClean reset
  | .directExpire reset => mm.directExpireEnd reset
  | .initTop => do
    let s←slotAt mm.top
    return { mm with needInit := Function.update mm.needInit s false }
  | .update _ => mm.updateMotionEnd
  | .expire => if mm.expList.isSome then return mm.push (.expList 0) else return mm
  | .expList i => mm.deleteExpired i
  | .resetFlag => return { mm with resetFlag := false }

/-- A callback returns. The generator is deleted after its `Finalize`. -/
def leave (mm : MotionMaster) (b : Bool) (c : Callback) (g : MovementGenerator) : MotionMaster :=
  match c with
  | .update => { mm with result := b }
  | .finalize => { mm with deleted := g::mm.deleted }
  | _ => mm

/-- The operations. -/
inductive Op where
  /-- `Initialize`. -/
  | initial
  /-- `Mutate` with a new generator. -/
  | move (slot : MovementSlot)
  | moveIdle
  | clear (reset : Bool)
  | movementExpired (reset : Bool)
  | updateMotion (stopped : Bool)
  deriving DecidableEq

/-- A call of an operation. -/
def call (mm : MotionMaster) : Op → Except Fault MotionMaster
  | .initial => mm.initialMove
  | .move slot => mm.move slot
  | .moveIdle => mm.moveIdle
  | .clear reset => mm.clear reset
  | .movementExpired reset => mm.movementExpired reset
  | .updateMotion stopped => mm.updateMotion stopped

/-- What can happen next. -/
inductive Action where
  /-- An operation is called, from outside or from the callback that runs. -/
  | call (op : Op)
  /-- The callback that runs returns. -/
  | leave (b : Bool)
  /-- The function whose callback has returned goes on. -/
  | go
  deriving DecidableEq

/-- The code that runs is outside the operations: nothing waits, or a callback runs. -/
def outside : List Frame → Bool
  | [] => true
  | .callback _ _::_ => true
  | _ => false

/-- What comes of an action. -/
def act (mm : MotionMaster) (a : Action) : Except Fault MotionMaster :=
  match a,mm.stack with
  | .call op,stack => if outside stack then mm.call op else return mm
  | .leave b,.callback c g::rest => return { mm with stack := rest }.leave b c g
  | .leave _,_ => return mm
  | .go,.callback _ _::_ => return mm
  | .go,f::rest => { mm with stack := rest }.resume f
  | .go,[] => return mm

/-- One action. A fault ends the run. -/
def step (mm : MotionMaster) (a : Action) : MotionMaster :=
  if mm.fault≠none then mm
  else
    match mm.act a with
    | .ok mm' => mm'
    | .error e => { mm with fault := some e }

end MotionMaster

end Projectnelth.MotionMasterModel
