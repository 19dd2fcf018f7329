import Mathlib
import Projectnelth.KeyedList

/-!
# The seats of a vehicle

A passenger boards in two steps. `AddPassenger` chooses the seat, files a join event in the
list of the pending ones and in the queue of the unit; later the event processor of the unit
executes or aborts the event. In between passengers leave, requests are withdrawn and the
vehicle is uninstalled. The control auras of the passengers, what the object accessor finds
and whether a charm takes hold belong to the environment and come with the operations.
-/

namespace Projectnelth.VehicleModel

open KeyedList

/-- What `VehicleSeatEntry` says of a seat. -/
structure SeatInfo where
  canEnterOrExit : Bool
  isUsableByOverride : Bool
  deriving DecidableEq,Repr

/-- `VehicleSeat` with its place in the map. -/
structure VehicleSeat where
  /-- The key in `Seats`. -/
  id : ℕ
  seatInfo : SeatInfo
  /-- `Passenger.Guid`, none for zero. -/
  passenger : Option ℕ
  deriving DecidableEq,Repr

def VehicleSeat.isEmpty (seat : VehicleSeat) : Bool := seat.passenger.isNone

/-- A seat that `UsableSeatNum` counts while it is empty. -/
def VehicleSeat.usable (seat : VehicleSeat) : Bool := seat.isEmpty && seat.seatInfo.canEnterOrExit

structure VehicleJoinEvent where
  /-- The number of the event, in the order of creation. -/
  id : ℕ
  passenger : ℕ
  /-- `Seat`, none for the end of the map. -/
  seat : Option ℕ
  toAbort : Bool
  /-- Whether `Target` refers to the vehicle. -/
  target : Bool
  /-- Whether the event is in the queue of its passenger. -/
  queued : Bool
  deriving DecidableEq,Repr

/-- A join event that was given a seat and bears no abort mark. -/
def VehicleJoinEvent.waiting (e : VehicleJoinEvent) : Bool := e.seat.isSome && !e.toAbort

/-- `Vehicle::Status`. -/
inductive Status where
  /-- `STATUS_NONE`. -/
  | none
  /-- `STATUS_INSTALLED`. -/
  | installed
  /-- `STATUS_UNINSTALLING`. -/
  | uninstalling
  deriving DecidableEq,Repr

/-- A vehicle and the join events that were made for it and are not deleted. -/
structure Vehicle where
  seats : List VehicleSeat
  usableSeatNum : ℕ
  status : Status
  /-- `_pendingJoinEvents`: the numbers of the events. -/
  pendingJoinEvents : List ℕ
  events : List VehicleJoinEvent
  /-- The number of the next event. -/
  created : ℕ
  /-- The units whose `m_vehicle` is this vehicle. -/
  riding : List ℕ
  deriving DecidableEq,Repr

/-- The seats that the constructor makes of the seat table, from a place on. -/
def makeSeats : ℕ → List (Option SeatInfo) → List VehicleSeat
  | _,[] => []
  | i,none::table => makeSeats (i+1) table
  | i,some info::table => ⟨i,info,none⟩::makeSeats (i+1) table

/-- The constructor: each seat that can be entered or exited adds to `UsableSeatNum`. -/
def create (table : List (Option SeatInfo)) : Vehicle where
  seats := makeSeats 0 table
  usableSeatNum := (table.map fun entry => (entry.any (·.canEnterOrExit)).toNat).sum
  status := .none
  pendingJoinEvents := []
  events := []
  created := 0
  riding := []

/-- `Seats.find`. -/
def Vehicle.seat (v : Vehicle) (seatId : ℕ) : Option VehicleSeat := lookup (·.id) seatId v.seats

/-- The event of a number. -/
def Vehicle.event (v : Vehicle) (id : ℕ) : Option VehicleJoinEvent := lookup (·.id) id v.events

/-- `GetSeatIteratorForPassenger`. -/
def Vehicle.seatOf (v : Vehicle) (unit : ℕ) : Option VehicleSeat :=
  v.seats.find? fun seat => seat.passenger=some unit

/-- The pending events of a kind are marked and erased from the list. -/
def Vehicle.removePending (v : Vehicle) (kind : VehicleJoinEvent → Bool) : Vehicle :=
  {v with
    events := v.events.map fun e =>
      if e.id∈v.pendingJoinEvents ∧ kind e=true then {e with toAbort := true} else e
    pendingJoinEvents := v.pendingJoinEvents.filter fun id => !(v.event id).any kind}

def Vehicle.removePendingEventsForSeat (v : Vehicle) (seatId : ℕ) : Vehicle :=
  v.removePending fun e => e.seat=some seatId

def Vehicle.removePendingEventsForPassenger (v : Vehicle) (unit : ℕ) : Vehicle :=
  v.removePending fun e => e.passenger=unit

def Vehicle.hasPendingEventForSeat (v : Vehicle) (seatId : ℕ) : Bool :=
  v.pendingJoinEvents.any fun id => (v.event id).any fun e => e.seat=some seatId

/-- The event is deleted. Its destructor calls `RemovePendingEvent` while it has a target. -/
def Vehicle.delete (v : Vehicle) (e : VehicleJoinEvent) : Vehicle :=
  {v with
    events := remove (·.id) e.id v.events
    pendingJoinEvents :=
      if e.target=true then v.pendingJoinEvents.erase e.id else v.pendingJoinEvents}

def Vehicle.removePassenger (v : Vehicle) (unit : ℕ) : Vehicle :=
  if unit∈v.riding then
    match v.seatOf unit with
    | none => v
    | some seat =>
      {v with
        usableSeatNum := v.usableSeatNum+seat.seatInfo.canEnterOrExit.toNat
        seats := replace (·.id) {seat with passenger := none} v.seats}
  else v

/-- `m_vehicle` of the unit no longer is this vehicle. -/
def Vehicle.forget (v : Vehicle) (unit : ℕ) : Vehicle :=
  {v with riding := v.riding.filter (·≠unit)}

/-- What the control aura of the unit does when it is removed: the pending events of the unit
go, and `_ExitVehicle` takes it off whatever it rides. -/
def Vehicle.unapplyControl (v : Vehicle) (unit : ℕ) : Vehicle :=
  ((v.removePendingEventsForPassenger unit).removePassenger unit).forget unit

/-- `ExitVehicle`: it removes the control aura from the vehicle that the unit rides. -/
def Vehicle.exitVehicle (v : Vehicle) (unit : ℕ) : Vehicle :=
  if unit∈v.riding then v.unapplyControl unit else v

/-- A new join event in the queue of the unit. -/
def Vehicle.newEvent (v : Vehicle) (unit : ℕ) (seat : Option ℕ) (toAbort : Bool) : Vehicle :=
  {v with
    events := v.events++[⟨v.created,unit,seat,toAbort,true,true⟩]
    created := v.created+1}

/-- A new join event that is given a seat and becomes a pending one. -/
def Vehicle.request (v : Vehicle) (unit seatId : ℕ) : Vehicle :=
  {v.newEvent unit (some seatId) false with
    pendingJoinEvents := v.pendingJoinEvents++[v.created]}

/-- The seat that `AddPassenger` chooses: without a wish the first one that is empty, has no
pending event and can be used, otherwise the one of the number. -/
def Vehicle.chooseSeat (v : Vehicle) (seatId : ℤ) : Option VehicleSeat :=
  if seatId < 0 then
    v.seats.find? fun seat => seat.isEmpty && !v.hasPendingEventForSeat seat.id &&
      (seat.seatInfo.canEnterOrExit || seat.seatInfo.isUsableByOverride)
  else v.seat seatId.toNat

/-- `AddPassenger`. The accessor finds the passenger of an occupied seat or not. -/
def Vehicle.addPassenger (v : Vehicle) (unit : ℕ) (seatId : ℤ) (found : Bool) : Vehicle :=
  if v.status=.uninstalling then v
  else
    match v.chooseSeat seatId with
    | none => v.newEvent unit none true
    | some seat =>
      match seat.passenger,found with
      | some passenger,true => (v.request unit seat.id).exitVehicle passenger
      | _,_ => v.request unit seat.id

/-- The unit is put on a seat by `Execute`; none where the assertion on `UsableSeatNum`
fails. -/
def Vehicle.board (v : Vehicle) (unit seatId : ℕ) : Option Vehicle :=
  match v.seat seatId with
  | none => none
  | some seat =>
    if seat.seatInfo.canEnterOrExit=true ∧ v.usableSeatNum=0 then none
    else
      some {v with
        riding := unit::v.riding
        seats := replace (·.id) {seat with passenger := some unit} v.seats
        usableSeatNum := v.usableSeatNum-seat.seatInfo.canEnterOrExit.toNat}

/-- The event leaves the queue and is not deleted. -/
def Vehicle.unqueue (v : Vehicle) (id : ℕ) : Vehicle :=
  {v with events := v.events.map fun e => if e.id=id then {e with queued := false} else e}

/-- `VehicleJoinEvent::Execute`; none where an assertion fails. When the vehicle cannot be
charmed by its driver, `Execute` returns false, upon which the event is not deleted. -/
def Vehicle.execute (v : Vehicle) (e : VehicleJoinEvent) (charmed : Bool) : Option Vehicle :=
  match e.target,e.seat with
  | true,some seatId =>
    ((v.removePendingEventsForSeat seatId).board e.passenger seatId).map fun v =>
      if charmed=true then v.delete e else v.unqueue e.id
  | _,_ => none

/-- `VehicleJoinEvent::Abort` and the deletion that follows it. Where the base of the vehicle
is found, the control aura of the passenger is removed if it is there, otherwise the event
forgets its target. -/
def Vehicle.abort (v : Vehicle) (e : VehicleJoinEvent) (found aura : Bool) : Vehicle :=
  if found=true then
    (if aura=true then v.unapplyControl e.passenger else v).delete e
  else v.delete {e with target := false}

/-- `RemoveAllPassengers`: all pending events are marked, and those of a vehicle that is
uninstalled lose their target; then the control auras of the casters are removed. -/
def Vehicle.removeAllPassengers (v : Vehicle) (casters : List ℕ) : Vehicle :=
  casters.foldl Vehicle.unapplyControl
    {v with
      events := v.events.map fun e =>
        if e.id∈v.pendingJoinEvents then
          {e with toAbort := true,target := decide (v.status≠.uninstalling)}
        else e
      pendingJoinEvents := []}

/-- `Uninstall`. Only a minion is uninstalled twice. -/
def Vehicle.uninstall (v : Vehicle) (minion : Bool) (casters : List ℕ) : Vehicle :=
  if v.status=.uninstalling ∧ minion=false then v
  else {v with status := .uninstalling}.removeAllPassengers casters

/-- What happens to a vehicle. -/
inductive Action where
  /-- `AddPassenger` with the unit, the seat and whether a passenger of that seat is found. -/
  | addPassenger (unit : ℕ) (seatId : ℤ) (found : Bool)
  /-- The queue of its passenger executes a join event. -/
  | execute (id : ℕ) (charmed : Bool)
  /-- The queue of its passenger aborts a join event. -/
  | abort (id : ℕ) (found aura : Bool)
  | removePassenger (unit : ℕ)
  /-- The control aura of a unit is removed. -/
  | unapplyControl (unit : ℕ)
  | removePendingEventsForPassenger (unit : ℕ)
  /-- The unit boards another vehicle. -/
  | boardElsewhere (unit : ℕ)
  /-- `Uninstall` with the casters of the control auras. -/
  | uninstall (minion : Bool) (casters : List ℕ)
  deriving DecidableEq,Repr

/-- `Execute` of a queued event without the abort mark. A failed assertion ends the process:
nothing happens any more. -/
def Vehicle.processExecute (v : Vehicle) (id : ℕ) (charmed : Bool) : Vehicle :=
  match v.event id with
  | some e => if e.queued=true ∧ e.toAbort=false then (v.execute e charmed).getD v else v
  | none => v

/-- `Abort` of a queued event, which bears the mark or is marked by `KillAllEvents`. -/
def Vehicle.processAbort (v : Vehicle) (id : ℕ) (found aura : Bool) : Vehicle :=
  match v.event id with
  | some e => if e.queued=true then v.abort e found aura else v
  | none => v

/-- One step. -/
def step (v : Vehicle) : Action → Vehicle
  | .addPassenger unit seatId found => v.addPassenger unit seatId found
  | .execute id charmed => v.processExecute id charmed
  | .abort id found aura => v.processAbort id found aura
  | .removePassenger unit => v.removePassenger unit
  | .unapplyControl unit => v.unapplyControl unit
  | .removePendingEventsForPassenger unit => v.removePendingEventsForPassenger unit
  | .boardElsewhere unit => v.forget unit
  | .uninstall minion casters => v.uninstall minion casters

end Projectnelth.VehicleModel
