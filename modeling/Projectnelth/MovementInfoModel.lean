import Mathlib
import Projectnelth.ArraySizes
import Projectnelth.ByteBufferModel

/-!
# Movement packets

A movement packet is a sequence of status elements, and one table gives the sequence to the
writer and to the reader. Each of the two goes through it with a `switch` of its own, a
presence bit first and what it guards later. Floats are their 32 bits, and what the code does
with them is a parameter.
-/

namespace Projectnelth.MovementInfoModel

open BitBytes ByteBufferModel

/-- What is done with floats, on their bits. -/
structure FloatOps where
  /-- `G3D::fuzzyEq(x, 0.0f)`. -/
  fuzzyZero : UInt32 → Bool
  /-- The float is not `0.0f`, as a condition. -/
  nonzero : UInt32 → Bool
  /-- `x < 0`. -/
  negative : UInt32 → Bool
  /-- `-x`. -/
  neg : UInt32 → UInt32
  /-- `+`. -/
  add : UInt32 → UInt32 → UInt32
  fmod : UInt32 → UInt32 → UInt32
  /-- `2.0f * static_cast < float > (M_PI)`. -/
  twoPi : UInt32

/-- `Position::NormalizeOrientation`. -/
def FloatOps.normalizeOrientation (f : FloatOps) (o : UInt32) : UInt32 :=
  if f.negative o then f.add (f.neg (f.fmod (f.neg o) f.twoPi)) f.twoPi else f.fmod o f.twoPi

/-- `ObjectGuid`: a `uint64` by its bytes, from the lowest. -/
abbrev ObjectGuid := Fin 8 → UInt8

/-- The guid is not 0. -/
def ObjectGuid.nonzero (id : ObjectGuid) : Bool := ∃ i, id i≠0

/-- The low 32 bits of the guid are not 0. -/
def ObjectGuid.low (id : ObjectGuid) : Bool := ∃ i : Fin 8, i < 4 ∧ id i≠0

structure Position where
  /-- `m_positionX`. -/
  positionX : UInt32
  /-- `m_positionY`. -/
  positionY : UInt32
  /-- `m_positionZ`. -/
  positionZ : UInt32
  /-- `m_orientation`. -/
  orientation : UInt32

structure MovementInfo where
  guid : ObjectGuid
  flags : UInt32
  flags2 : UInt16
  pos : Position
  time : UInt32
  t_guid : ObjectGuid
  t_pos : Position
  /-- `t_seat`, an `int8`. -/
  t_seat : UInt8
  t_time : UInt32
  t_time2 : UInt32
  t_time3 : UInt32
  pitch : UInt32
  fallTime : UInt32
  j_zspeed : UInt32
  j_cosAngle : UInt32
  j_sinAngle : UInt32
  j_xyspeed : UInt32
  hasSpline : Bool
  splineElevation : UInt32
  ackCount : UInt32
  ackSpeed : UInt32
  height : UInt32

/-- `MovementInfo::MovementInfo`: no seat is -1, everything else 0. -/
def MovementInfo.new : MovementInfo where
  guid := fun _ => 0
  flags := 0
  flags2 := 0
  pos := ⟨0,0,0,0⟩
  time := 0
  t_guid := fun _ => 0
  t_pos := ⟨0,0,0,0⟩
  t_seat := 0xFF
  t_time := 0
  t_time2 := 0
  t_time3 := 0
  pitch := 0
  fallTime := 0
  j_zspeed := 0
  j_cosAngle := 0
  j_sinAngle := 0
  j_xyspeed := 0
  hasSpline := false
  splineElevation := 0
  ackCount := 0
  ackSpeed := 0
  height := 0

/-- The presence bits that the reader keeps. -/
inductive PresenceElement
  /-- `MSEHasMovementFlags`. -/
  | movementFlags
  /-- `MSEHasMovementFlags2`. -/
  | movementFlags2
  /-- `MSEHasTimestamp`. -/
  | timestamp
  /-- `MSEHasOrientation`. -/
  | orientation
  /-- `MSEHasTransportData`. -/
  | transportData
  /-- `MSEHasTransportTime2`. -/
  | transportTime2
  /-- `MSEHasTransportTime3`. -/
  | transportTime3
  /-- `MSEHasPitch`. -/
  | pitch
  /-- `MSEHasFallData`. -/
  | fallData
  /-- `MSEHasFallDirection`. -/
  | fallDirection
  /-- `MSEHasSplineElevation`. -/
  | splineElevation
  deriving DecidableEq

/-- The elements that are whole values. -/
inductive DataElement
  /-- `MSETimestamp`. -/
  | timestamp
  /-- `MSEPositionX`. -/
  | positionX
  /-- `MSEPositionY`. -/
  | positionY
  /-- `MSEPositionZ`. -/
  | positionZ
  /-- `MSEOrientation`. -/
  | orientation
  /-- `MSETransportPositionX`. -/
  | transportPositionX
  /-- `MSETransportPositionY`. -/
  | transportPositionY
  /-- `MSETransportPositionZ`. -/
  | transportPositionZ
  /-- `MSETransportOrientation`. -/
  | transportOrientation
  /-- `MSETransportSeat`. -/
  | transportSeat
  /-- `MSETransportTime`. -/
  | transportTime
  /-- `MSETransportTime2`. -/
  | transportTime2
  /-- `MSETransportTime3`. -/
  | transportTime3
  /-- `MSEPitch`. -/
  | pitch
  /-- `MSEFallTime`. -/
  | fallTime
  /-- `MSEFallVerticalSpeed`. -/
  | fallVerticalSpeed
  /-- `MSEFallCosAngle`. -/
  | fallCosAngle
  /-- `MSEFallSinAngle`. -/
  | fallSinAngle
  /-- `MSEFallHorizontalSpeed`. -/
  | fallHorizontalSpeed
  /-- `MSESplineElevation`. -/
  | splineElevation
  /-- `MSECounter`. -/
  | counter
  /-- `MSESpeedWalk` to `MSESpeedPitchRate`. -/
  | speed (i : Fin 9)
  /-- `MSEHeight`. -/
  | height
  deriving DecidableEq

/-- `MovementStatusElements`, but for the `MSEEnd` that ends a sequence. -/
inductive MovementStatusElement
  /-- `MSEHasGuidByte0` to `MSEHasGuidByte7`. -/
  | hasGuidByte (i : Fin 8)
  /-- A presence bit that the reader keeps. -/
  | has (p : PresenceElement)
  /-- `MSEHasTransportGuidByte0` to `MSEHasTransportGuidByte7`. -/
  | hasTransportGuidByte (i : Fin 8)
  /-- `MSEHasSpline`. -/
  | hasSpline
  /-- `MSEGuidByte0` to `MSEGuidByte7`. -/
  | guidByte (i : Fin 8)
  /-- `MSEMovementFlags`. -/
  | movementFlags
  /-- `MSEMovementFlags2`. -/
  | movementFlags2
  /-- `MSETransportGuidByte0` to `MSETransportGuidByte7`. -/
  | transportGuidByte (i : Fin 8)
  /-- A whole value. -/
  | data (d : DataElement)
  /-- `MSEZeroBit`. -/
  | zeroBit
  /-- `MSEOneBit`. -/
  | oneBit
  deriving DecidableEq

section Writer

variable (f : FloatOps) (info : MovementInfo)

/-- `hasFallData` of the writer. -/
def MovementInfo.hasFallData : Bool := info.fallTime≠0 || f.nonzero info.j_zspeed

/-- `hasFallDirection` of the writer. -/
def MovementInfo.hasFallDirection : Bool :=
  info.hasFallData f &&
    (f.nonzero info.j_cosAngle || f.nonzero info.j_sinAngle || f.nonzero info.j_xyspeed)

/-- `WriteBit` for a presence bit. The bit is a `uint32`, so that of a guid is its low half. -/
def MovementInfo.writePresence (buf : ByteBuffer) : PresenceElement → Option ByteBuffer
  | .movementFlags => buf.WriteBit (info.flags=0)
  | .movementFlags2 => buf.WriteBit (info.flags2=0)
  | .timestamp => buf.WriteBit (info.time=0)
  | .orientation => buf.WriteBit (f.fuzzyZero info.pos.orientation)
  | .transportData => buf.WriteBit info.t_guid.low
  | .transportTime2 =>
    if info.t_guid.nonzero then buf.WriteBit (info.t_time2≠0) else some buf
  | .transportTime3 =>
    if info.t_guid.nonzero then buf.WriteBit (info.t_time3≠0) else some buf
  | .pitch => buf.WriteBit (f.fuzzyZero info.pitch)
  | .fallData => buf.WriteBit (info.hasFallData f)
  | .fallDirection =>
    if info.hasFallData f then buf.WriteBit (info.hasFallDirection f) else some buf
  | .splineElevation => buf.WriteBit (f.fuzzyZero info.splineElevation)

/-- `operator<<` of 32 bits. -/
def writeUInt32 (buf : ByteBuffer) (value : UInt32) : Option ByteBuffer :=
  buf.append (leBytes 4 value.toNat)

/-- `operator<<` of an `int8`. -/
def writeInt8 (buf : ByteBuffer) (value : UInt8) : Option ByteBuffer :=
  buf.append (leBytes 1 value.toNat)

/-- `operator<<` for a whole value. -/
def MovementInfo.writeData (buf : ByteBuffer) : DataElement → Option ByteBuffer
  | .timestamp => if info.time≠0 then writeUInt32 buf info.time else some buf
  | .positionX => writeUInt32 buf info.pos.positionX
  | .positionY => writeUInt32 buf info.pos.positionY
  | .positionZ => writeUInt32 buf info.pos.positionZ
  | .orientation =>
    if !f.fuzzyZero info.pos.orientation then writeUInt32 buf info.pos.orientation else some buf
  | .transportPositionX =>
    if info.t_guid.nonzero then writeUInt32 buf info.t_pos.positionX else some buf
  | .transportPositionY =>
    if info.t_guid.nonzero then writeUInt32 buf info.t_pos.positionY else some buf
  | .transportPositionZ =>
    if info.t_guid.nonzero then writeUInt32 buf info.t_pos.positionZ else some buf
  | .transportOrientation =>
    if info.t_guid.nonzero then writeUInt32 buf info.t_pos.orientation else some buf
  | .transportSeat => if info.t_guid.nonzero then writeInt8 buf info.t_seat else some buf
  | .transportTime => if info.t_guid.nonzero then writeUInt32 buf info.t_time else some buf
  | .transportTime2 =>
    if info.t_guid.nonzero && info.t_time2≠0 then writeUInt32 buf info.t_time2 else some buf
  | .transportTime3 =>
    if info.t_guid.nonzero && info.t_time3≠0 then writeUInt32 buf info.t_time3 else some buf
  | .pitch => if !f.fuzzyZero info.pitch then writeUInt32 buf info.pitch else some buf
  | .fallTime => if info.hasFallData f then writeUInt32 buf info.fallTime else some buf
  | .fallVerticalSpeed => if info.hasFallData f then writeUInt32 buf info.j_zspeed else some buf
  | .fallCosAngle =>
    if info.hasFallData f && info.hasFallDirection f then writeUInt32 buf info.j_cosAngle
    else some buf
  | .fallSinAngle =>
    if info.hasFallData f && info.hasFallDirection f then writeUInt32 buf info.j_sinAngle
    else some buf
  | .fallHorizontalSpeed =>
    if info.hasFallData f && info.hasFallDirection f then writeUInt32 buf info.j_xyspeed
    else some buf
  | .splineElevation =>
    if !f.fuzzyZero info.splineElevation then writeUInt32 buf info.splineElevation
    else some buf
  | .counter => writeUInt32 buf info.ackCount
  | .speed _ => writeUInt32 buf info.ackSpeed
  | .height => writeUInt32 buf info.height

/-- The body of the loop of `Write_OLD`. -/
def MovementInfo.writeElement (buf : ByteBuffer) : MovementStatusElement → Option ByteBuffer
  | .hasGuidByte i => buf.WriteBit (info.guid i≠0)
  | .has p => info.writePresence f buf p
  | .hasTransportGuidByte i =>
    if info.t_guid.nonzero then buf.WriteBit (info.t_guid i≠0) else some buf
  | .hasSpline => buf.WriteBit info.hasSpline
  | .guidByte i => buf.WriteByteSeq (info.guid i)
  | .movementFlags => if info.flags≠0 then buf.WriteBits info.flags 30 else some buf
  | .movementFlags2 =>
    if info.flags2≠0 then buf.WriteBits info.flags2.toUInt32 12 else some buf
  | .transportGuidByte i =>
    if info.t_guid.nonzero then buf.WriteByteSeq (info.t_guid i) else some buf
  | .data d => info.writeData f buf d
  | .zeroBit => buf.WriteBit false
  | .oneBit => buf.WriteBit true

/-- `Write_OLD`, for a sequence in place of its opcode. -/
def MovementInfo.Write_OLD : ByteBuffer → List MovementStatusElement → Option ByteBuffer
  | buf,[] => some buf
  | buf,e::sequence => do
    let buf←info.writeElement f buf e
    MovementInfo.Write_OLD buf sequence

end Writer

/-- The presence bits that the reader has seen. -/
structure Presence where
  /-- `hasMovementFlags`. -/
  movementFlags : Bool
  /-- `hasMovementFlags2`. -/
  movementFlags2 : Bool
  /-- `hasTimestamp`. -/
  timestamp : Bool
  /-- `hasOrientation`. -/
  orientation : Bool
  /-- `hasTransportData`. -/
  transportData : Bool
  /-- `hasTransportTime2`. -/
  transportTime2 : Bool
  /-- `hasTransportTime3`. -/
  transportTime3 : Bool
  /-- `hasPitch`. -/
  pitch : Bool
  /-- `hasFallData`. -/
  fallData : Bool
  /-- `hasFallDirection`. -/
  fallDirection : Bool
  /-- `hasSplineElevation`. -/
  splineElevation : Bool

/-- The locals of `Read_OLD`, with the info it reads into. -/
structure Reading where
  has : Presence
  id : ObjectGuid
  tid : ObjectGuid
  /-- `*this`. -/
  info : MovementInfo

/-- The locals of `Read_OLD` at its start. -/
def Reading.start (info : MovementInfo) : Reading where
  has := ⟨false,false,false,false,false,false,false,false,false,false,false⟩
  id := fun _ => 0
  tid := fun _ => 0
  info := info

section Reader

variable (f : FloatOps)

/-- `ReadBit` for a presence bit. -/
def Presence.read (has : Presence) (buf : ByteBuffer) :
    PresenceElement → Option (Presence×ByteBuffer)
  | .movementFlags => do
    let (bit,buf)←buf.ReadBit
    return ({ has with movementFlags := !bit },buf)
  | .movementFlags2 => do
    let (bit,buf)←buf.ReadBit
    return ({ has with movementFlags2 := !bit },buf)
  | .timestamp => do
    let (bit,buf)←buf.ReadBit
    return ({ has with timestamp := !bit },buf)
  | .orientation => do
    let (bit,buf)←buf.ReadBit
    return ({ has with orientation := !bit },buf)
  | .transportData => do
    let (bit,buf)←buf.ReadBit
    return ({ has with transportData := bit },buf)
  | .transportTime2 =>
    if has.transportData then do
      let (bit,buf)←buf.ReadBit
      return ({ has with transportTime2 := bit },buf)
    else some (has,buf)
  | .transportTime3 =>
    if has.transportData then do
      let (bit,buf)←buf.ReadBit
      return ({ has with transportTime3 := bit },buf)
    else some (has,buf)
  | .pitch => do
    let (bit,buf)←buf.ReadBit
    return ({ has with pitch := !bit },buf)
  | .fallData => do
    let (bit,buf)←buf.ReadBit
    return ({ has with fallData := bit },buf)
  | .fallDirection =>
    if has.fallData then do
      let (bit,buf)←buf.ReadBit
      return ({ has with fallDirection := bit },buf)
    else some (has,buf)
  | .splineElevation => do
    let (bit,buf)←buf.ReadBit
    return ({ has with splineElevation := !bit },buf)

/-- `operator>>` of 32 bits, and what is done with them. -/
def readUInt32 (buf : ByteBuffer) (info : UInt32 → MovementInfo) :
    Option (MovementInfo×ByteBuffer) := do
  let (bytes,buf)←buf.read 4
  return (info (UInt32.ofNat (Nat.ofDigits 256 (bytes.map UInt8.toNat))),buf)

/-- `operator>>` of an `int8`, and what is done with it. -/
def readInt8 (buf : ByteBuffer) (info : UInt8 → MovementInfo) :
    Option (MovementInfo×ByteBuffer) := do
  let (bytes,buf)←buf.read 1
  return (info (UInt8.ofNat (Nat.ofDigits 256 (bytes.map UInt8.toNat))),buf)

/-- `operator>>` for a whole value. -/
def MovementInfo.readData (info : MovementInfo) (has : Presence) (buf : ByteBuffer) :
    DataElement → Option (MovementInfo×ByteBuffer)
  | .timestamp =>
    if has.timestamp then readUInt32 buf fun x => { info with time := x }
    else some (info,buf)
  | .positionX => readUInt32 buf fun x => { info with pos := { info.pos with positionX := x } }
  | .positionY => readUInt32 buf fun x => { info with pos := { info.pos with positionY := x } }
  | .positionZ => readUInt32 buf fun x => { info with pos := { info.pos with positionZ := x } }
  | .orientation =>
    if has.orientation then readUInt32 buf fun x =>
      { info with pos := { info.pos with orientation := f.normalizeOrientation x } }
    else some (info,buf)
  | .transportPositionX =>
    if has.transportData then readUInt32 buf fun x =>
      { info with t_pos := { info.t_pos with positionX := x } }
    else some (info,buf)
  | .transportPositionY =>
    if has.transportData then readUInt32 buf fun x =>
      { info with t_pos := { info.t_pos with positionY := x } }
    else some (info,buf)
  | .transportPositionZ =>
    if has.transportData then readUInt32 buf fun x =>
      { info with t_pos := { info.t_pos with positionZ := x } }
    else some (info,buf)
  | .transportOrientation =>
    if has.transportData then readUInt32 buf fun x =>
      { info with t_pos := { info.t_pos with orientation := f.normalizeOrientation x } }
    else some (info,buf)
  | .transportSeat =>
    if has.transportData then readInt8 buf fun x => { info with t_seat := x }
    else some (info,buf)
  | .transportTime =>
    if has.transportData then readUInt32 buf fun x => { info with t_time := x }
    else some (info,buf)
  | .transportTime2 =>
    if has.transportData && has.transportTime2 then
      readUInt32 buf fun x => { info with t_time2 := x }
    else some (info,buf)
  | .transportTime3 =>
    if has.transportData && has.transportTime3 then
      readUInt32 buf fun x => { info with t_time3 := x }
    else some (info,buf)
  | .pitch =>
    if has.pitch then readUInt32 buf fun x => { info with pitch := x } else some (info,buf)
  | .fallTime =>
    if has.fallData then readUInt32 buf fun x => { info with fallTime := x }
    else some (info,buf)
  | .fallVerticalSpeed =>
    if has.fallData then readUInt32 buf fun x => { info with j_zspeed := x }
    else some (info,buf)
  | .fallCosAngle =>
    if has.fallData && has.fallDirection then
      readUInt32 buf fun x => { info with j_cosAngle := x }
    else some (info,buf)
  | .fallSinAngle =>
    if has.fallData && has.fallDirection then
      readUInt32 buf fun x => { info with j_sinAngle := x }
    else some (info,buf)
  | .fallHorizontalSpeed =>
    if has.fallData && has.fallDirection then
      readUInt32 buf fun x => { info with j_xyspeed := x }
    else some (info,buf)
  | .splineElevation =>
    if has.splineElevation then readUInt32 buf fun x => { info with splineElevation := x }
    else some (info,buf)
  | .counter => readUInt32 buf fun x => { info with ackCount := x }
  | .speed _ => readUInt32 buf fun x => { info with ackSpeed := x }
  | .height => readUInt32 buf fun x => { info with height := x }

/-- A byte of a guid is set. -/
def ObjectGuid.set (id : ObjectGuid) (i : Fin 8) (b : UInt8) : ObjectGuid :=
  Function.update id i b

/-- The body of the loop of `Read_OLD`. -/
def Reading.readElement (r : Reading) (buf : ByteBuffer) :
    MovementStatusElement → Option (Reading×ByteBuffer)
  | .hasGuidByte i => do
    let (bit,buf)←buf.ReadBit
    return ({ r with id := r.id.set i (if bit then 1 else 0) },buf)
  | .has p => do
    let (has,buf)←r.has.read buf p
    return ({ r with has := has },buf)
  | .hasTransportGuidByte i =>
    if r.has.transportData then do
      let (bit,buf)←buf.ReadBit
      return ({ r with tid := r.tid.set i (if bit then 1 else 0) },buf)
    else some (r,buf)
  | .hasSpline => do
    let (bit,buf)←buf.ReadBit
    return ({ r with info := { r.info with hasSpline := bit } },buf)
  | .guidByte i => do
    let (b,buf)←buf.ReadByteSeq (r.id i)
    return ({ r with id := r.id.set i b },buf)
  | .movementFlags =>
    if r.has.movementFlags then do
      let (flags,buf)←buf.ReadBits 0 30
      return ({ r with info := { r.info with flags := flags } },buf)
    else some (r,buf)
  | .movementFlags2 =>
    if r.has.movementFlags2 then do
      let (flags2,buf)←buf.ReadBits 0 12
      return ({ r with info := { r.info with flags2 := flags2.toUInt16 } },buf)
    else some (r,buf)
  | .transportGuidByte i =>
    if r.has.transportData then do
      let (b,buf)←buf.ReadByteSeq (r.tid i)
      return ({ r with tid := r.tid.set i b },buf)
    else some (r,buf)
  | .data d => do
    let (info,buf)←r.info.readData f r.has buf d
    return ({ r with info := info },buf)
  | .zeroBit => do
    let (_,buf)←buf.ReadBit
    return (r,buf)
  | .oneBit => do
    let (_,buf)←buf.ReadBit
    return (r,buf)

/-- The loop of `Read_OLD`. -/
def Reading.readSequence : Reading → ByteBuffer → List MovementStatusElement →
    Option (Reading×ByteBuffer)
  | r,buf,[] => some (r,buf)
  | r,buf,e::sequence => do
    let (r,buf)←r.readElement f buf e
    Reading.readSequence r buf sequence

/-- `Read_OLD`, for a sequence in place of its opcode. -/
def MovementInfo.Read_OLD (info : MovementInfo) (buf : ByteBuffer)
    (sequence : List MovementStatusElement) : Option (MovementInfo×ByteBuffer) := do
  let (r,buf)←(Reading.start info).readSequence f buf sequence
  return ({ r.info with
    guid := r.id
    t_guid := r.tid },buf)

end Reader

/-- The bytes of a packet: `Write_OLD` on an empty one, then `FlushBits`. -/
def MovementInfo.packet (f : FloatOps) (info : MovementInfo)
    (sequence : List MovementStatusElement) : Option (List UInt8) := do
  let buf←info.Write_OLD f ByteBuffer.new sequence
  let buf←buf.FlushBits
  return buf.storage

end Projectnelth.MovementInfoModel
