import Mathlib
import Projectnelth.ByteBufferRoundTrip
import Projectnelth.MovementInfoModel

/-!
# The elements of a movement packet

The tables give, for each element, what the writer sends and what the reader sets, and which
presence bits guard it. That they describe the two switches is proved case by case.
-/

namespace Projectnelth.MovementInfoModel

open BitBytes ByteBufferModel ByteBufferEmission ByteBufferRoundTrip

section Tables

variable (f : FloatOps) (info : MovementInfo)

/-- What a presence bit says of an info. -/
def PresenceElement.present : PresenceElement → Bool
  | .movementFlags => info.flags≠0
  | .movementFlags2 => info.flags2≠0
  | .timestamp => info.time≠0
  | .orientation => !f.fuzzyZero info.pos.orientation
  | .transportData => info.t_guid.nonzero
  | .transportTime2 => info.t_guid.nonzero && info.t_time2≠0
  | .transportTime3 => info.t_guid.nonzero && info.t_time3≠0
  | .pitch => !f.fuzzyZero info.pitch
  | .fallData => info.hasFallData f
  | .fallDirection => info.hasFallDirection f
  | .splineElevation => !f.fuzzyZero info.splineElevation

/-- A presence bit that is only there for a transport, or for a fall. -/
def PresenceElement.sent : PresenceElement → Bool
  | .transportTime2 | .transportTime3 => info.t_guid.nonzero
  | .fallDirection => info.hasFallData f
  | _ => true

/-- A presence bit that is 0 for a value that is there. -/
def PresenceElement.inverted : PresenceElement → Bool
  | .movementFlags | .movementFlags2 | .timestamp | .orientation | .pitch
  | .splineElevation => true
  | _ => false

/-- The value of an element in an info. -/
def DataElement.get : DataElement → ℕ
  | .timestamp => info.time.toNat
  | .positionX => info.pos.positionX.toNat
  | .positionY => info.pos.positionY.toNat
  | .positionZ => info.pos.positionZ.toNat
  | .orientation => info.pos.orientation.toNat
  | .transportPositionX => info.t_pos.positionX.toNat
  | .transportPositionY => info.t_pos.positionY.toNat
  | .transportPositionZ => info.t_pos.positionZ.toNat
  | .transportOrientation => info.t_pos.orientation.toNat
  | .transportSeat => info.t_seat.toNat
  | .transportTime => info.t_time.toNat
  | .transportTime2 => info.t_time2.toNat
  | .transportTime3 => info.t_time3.toNat
  | .pitch => info.pitch.toNat
  | .fallTime => info.fallTime.toNat
  | .fallVerticalSpeed => info.j_zspeed.toNat
  | .fallCosAngle => info.j_cosAngle.toNat
  | .fallSinAngle => info.j_sinAngle.toNat
  | .fallHorizontalSpeed => info.j_xyspeed.toNat
  | .splineElevation => info.splineElevation.toNat
  | .counter => info.ackCount.toNat
  | .speed _ => info.ackSpeed.toNat
  | .height => info.height.toNat

/-- The presence bits that guard an element. -/
def DataElement.guards : DataElement → List PresenceElement
  | .timestamp => [.timestamp]
  | .orientation => [.orientation]
  | .transportPositionX | .transportPositionY | .transportPositionZ | .transportOrientation
  | .transportSeat | .transportTime => [.transportData]
  | .transportTime2 => [.transportData,.transportTime2]
  | .transportTime3 => [.transportData,.transportTime3]
  | .pitch => [.pitch]
  | .fallTime | .fallVerticalSpeed => [.fallData]
  | .fallCosAngle | .fallSinAngle | .fallHorizontalSpeed => [.fallData,.fallDirection]
  | .splineElevation => [.splineElevation]
  | _ => []

/-- The writer announced the value as there. -/
def DataElement.announced (d : DataElement) : Bool := d.guards.all fun p => p.present f info

/-- The type of an element. -/
def DataElement.width : DataElement → IntWidth
  | .transportSeat => .int8
  | _ => .int32

/-- What the reader makes of a value. -/
def DataElement.normalized : DataElement → ℕ → ℕ
  | .orientation,v | .transportOrientation,v => (f.normalizeOrientation (UInt32.ofNat v)).toNat
  | _,v => v

/-- What a reader gets for an element: the value, or what a fresh info has. -/
def DataElement.carried (d : DataElement) : ℕ :=
  if d.announced f info then d.normalized f (d.get info) else d.get MovementInfo.new

/-- What is read for an element is what was written. -/
def Carried (res : MovementInfo) : MovementStatusElement → Prop
  | .guidByte i => res.guid i=info.guid i
  | .transportGuidByte i => res.t_guid i=info.t_guid i
  | .movementFlags => res.flags=info.flags
  | .movementFlags2 => res.flags2=info.flags2
  | .hasSpline => res.hasSpline=info.hasSpline
  | .data d => d.get res=d.carried f info
  | _ => True

/-- The elements that must come before an element. -/
def MovementStatusElement.guards : MovementStatusElement → List MovementStatusElement
  | .has .transportTime2 | .has .transportTime3 => [.has .transportData]
  | .has .fallDirection => [.has .fallData]
  | .hasTransportGuidByte _ => [.has .transportData]
  | .guidByte i => [.hasGuidByte i]
  | .movementFlags => [.has .movementFlags]
  | .movementFlags2 => [.has .movementFlags2]
  | .transportGuidByte i => [.has .transportData,.hasTransportGuidByte i]
  | .data d => d.guards.map .has
  | _ => []

/-- Each presence bit precedes what it guards, in a sequence after some elements. -/
def Guarded : List MovementStatusElement → List MovementStatusElement → Prop
  | _,[] => True
  | seen,e::sequence => (∀ g∈e.guards, g∈seen) ∧ Guarded (e::seen) sequence

instance Guarded.decidable : ∀ seen sequence, Decidable (Guarded seen sequence)
  | _,[] => isTrue trivial
  | seen,e::sequence =>
    have := Guarded.decidable (e::seen) sequence
    inferInstanceAs (Decidable ((∀ g∈e.guards, g∈seen) ∧ Guarded (e::seen) sequence))

/-- The kind of write for an element, if there is one. -/
def MovementStatusElement.kind : MovementStatusElement → Option Field
  | .has p => if p.sent f info then some .bit else none
  | .hasTransportGuidByte _ => if info.t_guid.nonzero then some .bit else none
  | .guidByte i => some (.byteSeq (info.guid i≠0))
  | .movementFlags => if info.flags≠0 then some (.bits 30 (by decide)) else none
  | .movementFlags2 => if info.flags2≠0 then some (.bits 12 (by decide)) else none
  | .transportGuidByte i =>
    if info.t_guid.nonzero then some (.byteSeq (info.t_guid i≠0)) else none
  | .data d => if d.announced f info then some (.int d.width) else none
  | _ => some .bit

/-- The kinds of write for a sequence. -/
def kinds (sequence : List MovementStatusElement) : List Field :=
  sequence.filterMap (MovementStatusElement.kind f info)

end Tables

section Writing

variable (f : FloatOps) (info : MovementInfo)

/-- The value of an element fits in its type. -/
theorem DataElement.get_lt (d : DataElement) : d.get info < 256^d.width.bytes := by
  cases d <;> first | exact UInt32.toNat_lt _ | exact UInt8.toNat_lt _

/-- The write for an element, if there is one. -/
def MovementStatusElement.op (hflags : info.flags.toNat < 2^30)
    (hflags2 : info.flags2.toNat < 2^12) : MovementStatusElement → Option Write
  | .hasGuidByte i => some (.bit (info.guid i≠0))
  | .has p => if p.sent f info then some (.bit (p.present f info ^^ p.inverted)) else none
  | .hasTransportGuidByte i =>
    if info.t_guid.nonzero then some (.bit (info.t_guid i≠0)) else none
  | .hasSpline => some (.bit info.hasSpline)
  | .guidByte i => some (.byteSeq (info.guid i))
  | .movementFlags =>
    if info.flags≠0 then some (.bits 30 info.flags (by decide) hflags) else none
  | .movementFlags2 =>
    if info.flags2≠0 then some (.bits 12 info.flags2.toUInt32 (by decide) (by simpa using hflags2))
    else none
  | .transportGuidByte i =>
    if info.t_guid.nonzero then some (.byteSeq (info.t_guid i)) else none
  | .data d =>
    if d.announced f info then some (.int d.width (d.get info) (d.get_lt info)) else none
  | .zeroBit => some (.bit false)
  | .oneBit => some (.bit true)

variable {f info} (hflags : info.flags.toNat < 2^30) (hflags2 : info.flags2.toNat < 2^12)

theorem op_field (e : MovementStatusElement) :
    (e.op f info hflags hflags2).map Write.field=e.kind f info := by
  cases e with
  | hasGuidByte i => rfl
  | hasSpline => rfl
  | guidByte i => rfl
  | zeroBit => rfl
  | oneBit => rfl
  | _ =>
    simp only [MovementStatusElement.op,MovementStatusElement.kind]
    split <;> rfl

/-- The writer's presence bits are as the tables say. -/
theorem writePresence_eq (hlow : info.t_guid.low=info.t_guid.nonzero) (buf : ByteBuffer)
    (p : PresenceElement) :
    info.writePresence f buf p=
      if p.sent f info then buf.WriteBit (p.present f info ^^ p.inverted) else some buf := by
  cases hn : info.t_guid.nonzero <;> cases p <;>
    simp [MovementInfo.writePresence,PresenceElement.sent,PresenceElement.present,
      PresenceElement.inverted,hlow,hn]

/-- So are its whole values. -/
theorem writeData_eq (buf : ByteBuffer) (d : DataElement) :
    info.writeData f buf d=
      if d.announced f info then buf.append (leBytes d.width.bytes (d.get info))
      else some buf := by
  cases d <;> simp [MovementInfo.writeData,DataElement.announced,DataElement.guards,
    PresenceElement.present,writeUInt32,writeInt8,DataElement.width,DataElement.get,IntWidth.bytes]

theorem writeElement_eq (hlow : info.t_guid.low=info.t_guid.nonzero) (buf : ByteBuffer)
    (e : MovementStatusElement) :
    info.writeElement f buf e=
      (e.op f info hflags hflags2).elim (some buf) fun w => w.write buf := by
  cases e with
  | hasGuidByte i => rfl
  | hasSpline => rfl
  | guidByte i => rfl
  | zeroBit => rfl
  | oneBit => rfl
  | has p =>
    refine (writePresence_eq hlow buf p).trans ?_
    simp only [MovementStatusElement.op]
    split <;> rfl
  | data d =>
    refine (writeData_eq buf d).trans ?_
    simp only [MovementStatusElement.op]
    split <;> rfl
  | _ =>
    simp only [MovementInfo.writeElement,MovementStatusElement.op]
    split <;> rfl

theorem Write_OLD_eq (hlow : info.t_guid.low=info.t_guid.nonzero) (buf : ByteBuffer)
    (sequence : List MovementStatusElement) :
    info.Write_OLD f buf sequence=
      writeAll buf (sequence.filterMap fun e => e.op f info hflags hflags2) := by
  induction sequence generalizing buf with
  | nil => rfl
  | cons e sequence ih =>
    simp only [MovementInfo.Write_OLD,writeElement_eq hflags hflags2 hlow]
    cases hop : e.op f info hflags hflags2 with
    | none =>
      rw [List.filterMap_cons_none hop]
      exact ih buf
    | some w =>
      rw [List.filterMap_cons_some hop]
      exact congrArg (w.write buf).bind (funext fun buf => ih buf)

end Writing

section Reading

/-- A presence bit that the reader has seen. -/
def Presence.get (has : Presence) : PresenceElement → Bool
  | .movementFlags => has.movementFlags
  | .movementFlags2 => has.movementFlags2
  | .timestamp => has.timestamp
  | .orientation => has.orientation
  | .transportData => has.transportData
  | .transportTime2 => has.transportTime2
  | .transportTime3 => has.transportTime3
  | .pitch => has.pitch
  | .fallData => has.fallData
  | .fallDirection => has.fallDirection
  | .splineElevation => has.splineElevation

/-- A presence bit is set. -/
def Presence.set (has : Presence) (b : Bool) : PresenceElement → Presence
  | .movementFlags => { has with movementFlags := b }
  | .movementFlags2 => { has with movementFlags2 := b }
  | .timestamp => { has with timestamp := b }
  | .orientation => { has with orientation := b }
  | .transportData => { has with transportData := b }
  | .transportTime2 => { has with transportTime2 := b }
  | .transportTime3 => { has with transportTime3 := b }
  | .pitch => { has with pitch := b }
  | .fallData => { has with fallData := b }
  | .fallDirection => { has with fallDirection := b }
  | .splineElevation => { has with splineElevation := b }

theorem Presence.get_set (has : Presence) (b : Bool) (p q : PresenceElement) :
    (has.set b p).get q=if q=p then b else has.get q := by
  cases p <;> cases q <;> rfl

/-- The reader expects a presence bit. -/
def PresenceElement.expected (has : Presence) : PresenceElement → Bool
  | .transportTime2 | .transportTime3 => has.transportData
  | .fallDirection => has.fallData
  | _ => true

theorem Presence.read_eq (has : Presence) (buf : ByteBuffer) (p : PresenceElement) :
    has.read buf p=
      if p.expected has then
        buf.ReadBit.map fun r => (has.set (r.1 ^^ p.inverted) p,r.2)
      else some (has,buf) := by
  cases p <;> simp [Presence.read,PresenceElement.expected,Presence.set,PresenceElement.inverted,
    Option.map_eq_bind]

variable (f : FloatOps)

/-- The reader puts a value into an info. -/
def DataElement.set (info : MovementInfo) (v : ℕ) : DataElement → MovementInfo
  | .timestamp => { info with time := UInt32.ofNat v }
  | .positionX => { info with pos := { info.pos with positionX := UInt32.ofNat v } }
  | .positionY => { info with pos := { info.pos with positionY := UInt32.ofNat v } }
  | .positionZ => { info with pos := { info.pos with positionZ := UInt32.ofNat v } }
  | .orientation =>
    { info with pos :=
        { info.pos with orientation := f.normalizeOrientation (UInt32.ofNat v) } }
  | .transportPositionX =>
    { info with t_pos := { info.t_pos with positionX := UInt32.ofNat v } }
  | .transportPositionY =>
    { info with t_pos := { info.t_pos with positionY := UInt32.ofNat v } }
  | .transportPositionZ =>
    { info with t_pos := { info.t_pos with positionZ := UInt32.ofNat v } }
  | .transportOrientation =>
    { info with t_pos :=
        { info.t_pos with orientation := f.normalizeOrientation (UInt32.ofNat v) } }
  | .transportSeat => { info with t_seat := UInt8.ofNat v }
  | .transportTime => { info with t_time := UInt32.ofNat v }
  | .transportTime2 => { info with t_time2 := UInt32.ofNat v }
  | .transportTime3 => { info with t_time3 := UInt32.ofNat v }
  | .pitch => { info with pitch := UInt32.ofNat v }
  | .fallTime => { info with fallTime := UInt32.ofNat v }
  | .fallVerticalSpeed => { info with j_zspeed := UInt32.ofNat v }
  | .fallCosAngle => { info with j_cosAngle := UInt32.ofNat v }
  | .fallSinAngle => { info with j_sinAngle := UInt32.ofNat v }
  | .fallHorizontalSpeed => { info with j_xyspeed := UInt32.ofNat v }
  | .splineElevation => { info with splineElevation := UInt32.ofNat v }
  | .counter => { info with ackCount := UInt32.ofNat v }
  | .speed _ => { info with ackSpeed := UInt32.ofNat v }
  | .height => { info with height := UInt32.ofNat v }

/-- All the speeds are one member. -/
def DataElement.slot : DataElement → DataElement
  | .speed _ => .speed 0
  | d => d

/-- The value that was put. -/
theorem DataElement.get_set_slot (info : MovementInfo) {v : ℕ} {d d' : DataElement}
    (hslot : d'.slot=d.slot) (hv : v < 256^d.width.bytes) :
    d'.get (d.set f info v)=d.normalized f v := by
  have h32 : d.width=.int32 → (UInt32.ofNat v).toNat=v := fun hw => by
    rw [hw] at hv
    exact UInt32.toNat_ofNat_of_lt' hv
  cases d <;> cases d' <;> first
    | exact DataElement.noConfusion hslot
    | exact h32 rfl
    | rfl
    | exact UInt8.toNat_ofNat_of_lt' hv

theorem DataElement.get_set_other (info : MovementInfo) (v : ℕ) {d d' : DataElement}
    (hslot : d'.slot≠d.slot) : d'.get (d.set f info v)=d'.get info := by
  cases d <;> cases d' <;> first
    | rfl
    | exact absurd rfl hslot

/-- The reader's whole values are as the tables say. -/
theorem readData_eq (info : MovementInfo) (has : Presence) (buf : ByteBuffer) (d : DataElement) :
    info.readData f has buf d=
      if d.guards.all has.get then
        (buf.read d.width.bytes).map fun r =>
          (d.set f info (Nat.ofDigits 256 (r.1.map UInt8.toNat)),r.2)
      else some (info,buf) := by
  cases d <;> simp [MovementInfo.readData,DataElement.guards,Presence.get,readUInt32,readInt8,
    DataElement.set,DataElement.width,IntWidth.bytes,Option.map_eq_bind]

end Reading

end Projectnelth.MovementInfoModel
