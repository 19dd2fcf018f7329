import Mathlib
import Projectnelth.BitBytes

/-!
# ByteBuffer

One buffer serves writer and reader: `_wpos` and `_rpos` are their byte
positions, `_bitpos` and `_curbitval` the bit cursor of whichever uses it. A
thrown exception and a failed `ASSERT` end the sequence of operations and give
`none`. Values of integer types travel in the little-endian order that
`EndianConvert` establishes; a signed value is its two's complement.
-/

namespace Projectnelth.ByteBufferModel

open BitBytes

structure ByteBuffer where
  rpos : ℕ
  wpos : ℕ
  bitpos : ℕ
  curbitval : UInt8
  storage : List UInt8
  deriving DecidableEq

/-- The default constructor. -/
def ByteBuffer.new : ByteBuffer := ⟨0,0,8,0,[]⟩

/-- A buffer that holds bytes received, from read position 0 and with a fresh bit cursor. -/
def ByteBuffer.holding (bytes : List UInt8) : ByteBuffer := ⟨0,bytes.length,8,0,bytes⟩

namespace ByteBuffer

def size (buf : ByteBuffer) : ℕ := buf.storage.length

/-- The size that `append` asserts to stay below. -/
def maxSize : ℕ := 10000000

/-- `append(const uint8*, size_t)`. -/
def appendRaw (buf : ByteBuffer) (src : List UInt8) : Option ByteBuffer :=
  if src=[] then
    none
  else if buf.size < maxSize then
    let storage := buf.storage++ List.replicate (buf.wpos+src.length-buf.size) 0
    some { buf with
      storage := storage.take buf.wpos++ src++ storage.drop (buf.wpos+src.length)
      wpos := buf.wpos+src.length }
  else
    none

def FlushBits (buf : ByteBuffer) : Option ByteBuffer :=
  if buf.bitpos=8 then
    some buf
  else do
    let buf←buf.appendRaw [buf.curbitval]
    return { buf with curbitval := 0,bitpos := 8 }

/-- `append < T > (T value)`, of the bytes of the value. -/
def append (buf : ByteBuffer) (value : List UInt8) : Option ByteBuffer := do
  let buf←buf.FlushBits
  buf.appendRaw value

def WriteBit (buf : ByteBuffer) (bit : Bool) : Option ByteBuffer :=
  let bitpos := buf.bitpos-1
  let curbitval :=
    if bit then UInt8.ofNat (buf.curbitval.toNat ||| 1 <<< bitpos) else buf.curbitval
  if bitpos=0 then do
    let buf←{ buf with bitpos := 8,curbitval := curbitval : ByteBuffer }.appendRaw [curbitval]
    return { buf with curbitval := 0 }
  else
    some { buf with bitpos := bitpos,curbitval := curbitval }

/-- `WriteBits`: the loop over `i=bits-1,…,0`. -/
def WriteBits (buf : ByteBuffer) (value : UInt32) : ℕ → Option ByteBuffer
  | 0 => some buf
  | i+1 => do
    let buf←buf.WriteBit ((value.toNat >>> i) &&& 1≠0)
    buf.WriteBits value i

/-- `operator<<(std::string)`. -/
def writeString (buf : ByteBuffer) (value : List UInt8) : Option ByteBuffer := do
  let buf←if value.length≠0 then buf.appendRaw value else some buf
  buf.append [0]

def WriteByteSeq (buf : ByteBuffer) (b : UInt8) : Option ByteBuffer :=
  if b≠0 then buf.append [b ^^^ 1] else some buf

/-- `read < T > ()` of `len` bytes: the bytes of the value. -/
def read (buf : ByteBuffer) (len : ℕ) : Option (List UInt8×ByteBuffer) :=
  if buf.rpos+len > buf.size then
    none
  else
    some ((buf.storage.drop buf.rpos).take len,{ buf with rpos := buf.rpos+len })

def ReadBit (buf : ByteBuffer) : Option (Bool×ByteBuffer) := do
  let buf := { buf with bitpos := buf.bitpos+1 }
  let buf←
    if buf.bitpos > 7 then do
      let (byte,buf)←buf.read 1
      some { buf with bitpos := 0,curbitval := byte.headD 0 }
    else
      some buf
  return (decide ((buf.curbitval.toNat >>> (7-buf.bitpos)) &&& 1≠0),buf)

/-- `ReadBits`: the loop over `i=bits-1,…,0` with the value so far. -/
def ReadBits (buf : ByteBuffer) (value : UInt32) : ℕ → Option (UInt32×ByteBuffer)
  | 0 => some (value,buf)
  | i+1 => do
    let (bit,buf)←buf.ReadBit
    buf.ReadBits (if bit then value ||| UInt32.ofNat (1 <<< i) else value) i

/-- The loop of `operator>>(std::string&)` over the unread bytes: the string and
the number of bytes read. -/
def stringLoop : List UInt8 → List UInt8×ℕ
  | [] => ([],0)
  | c::cs => if c=0 then ([],1) else (c::(stringLoop cs).1,(stringLoop cs).2+1)

/-- `operator>>(std::string&)`. -/
def readString (buf : ByteBuffer) : List UInt8×ByteBuffer :=
  let (value,len) := stringLoop (buf.storage.drop buf.rpos)
  (value,{ buf with rpos := buf.rpos+len })

def ReadByteSeq (buf : ByteBuffer) (b : UInt8) : Option (UInt8×ByteBuffer) :=
  if b≠0 then do
    let (byte,buf)←buf.read 1
    return (b ^^^ byte.headD 0,buf)
  else
    some (b,buf)

def clear (buf : ByteBuffer) : ByteBuffer := { buf with storage := [],rpos := 0,wpos := 0 }

def bitwpos (buf : ByteBuffer) : ℕ := buf.wpos*8+8-buf.bitpos

/-- The body of the loop of `PutBits`: one bit, counted from the highest of the first byte. -/
def putBit (storage : List UInt8) (pos : ℕ) (bit : Bool) : List UInt8 :=
  storage.modify (pos/8) fun byte => setBit byte (pos%8) bit

/-- The loop of `PutBits` with the number of bits that remain. -/
def putLoop (value : UInt32) : ℕ → List UInt8 → ℕ → List UInt8
  | 0,storage,_ => storage
  | i+1,storage,pos =>
    putLoop value i (putBit storage pos ((value.toNat >>> i) &&& 1≠0)) (pos+1)

end ByteBuffer

/-- What `PutBits` throws. -/
inductive ByteBufferException
  /-- `ByteBufferSourceException`. -/
  | source (pos size valueSize : ℕ)
  /-- `ByteBufferPositionException`. -/
  | position (add : Bool) (pos size valueSize : ℕ)
  deriving DecidableEq

/-- `PutBits`: what it throws, if it does, and the buffer afterwards. The positions are those that
`bitwpos` gives, so that their sum with the count is far from the end of `size_t`. -/
def ByteBuffer.PutBits (buf : ByteBuffer) (pos : ℕ) (value : UInt32) (bitCount : ℕ) :
    Option ByteBufferException×ByteBuffer :=
  if bitCount=0 then
    (some (ByteBufferException.source ((pos+bitCount)/8) buf.size 0),buf)
  else if pos+bitCount > buf.size*8 then
    (some (ByteBufferException.position false ((pos+bitCount)/8) buf.size ((bitCount-1)/8+1)),buf)
  else
    (none,{ buf with storage := ByteBuffer.putLoop value bitCount buf.storage pos })

/-- The widths of the integer types of `operator<<`. -/
inductive IntWidth
  | int8 | int16 | int32 | int64
  deriving DecidableEq

/-- `sizeof`. -/
def IntWidth.bytes : IntWidth → ℕ
  | int8 => 1
  | int16 => 2
  | int32 => 4
  | int64 => 8

/-- A write operation with its value. -/
inductive Write
  /-- `WriteBit(bit)`. -/
  | bit (b : Bool)
  /-- `WriteBits(value,n)`. -/
  | bits (n : ℕ) (value : UInt32) (hn : 1 ≤ n ∧ n ≤ 32) (h : value.toNat < 2^n)
  /-- `operator<<` of an integer. -/
  | int (width : IntWidth) (value : ℕ) (h : value < 256^width.bytes)
  /-- `operator<<` of a string without NUL. -/
  | string (value : List UInt8) (h : 0∉value)
  /-- `WriteByteSeq(b)`. -/
  | byteSeq (b : UInt8)

/-- A kind of write, which is what the reader has to know: the widths, the
length of a string, and whether a byte of a guid is there at all (its mask bit). -/
inductive Field
  | bit
  | bits (n : ℕ) (hn : 1 ≤ n ∧ n ≤ 32)
  | int (width : IntWidth)
  | string (length : ℕ)
  | byteSeq (present : Bool)
  deriving DecidableEq

/-- The kind of a write operation. -/
def Write.field : Write → Field
  | bit _ => Field.bit
  | bits n _ hn _ => Field.bits n hn
  | int width _ _ => Field.int width
  | string value _ => Field.string value.length
  | byteSeq b => Field.byteSeq (b≠0)

/-- What a read operation returns. -/
inductive Value
  | bit (b : Bool)
  | bits (value : UInt32)
  | int (value : ℕ)
  | string (value : List UInt8)
  | byteSeq (b : UInt8)
  deriving DecidableEq

/-- The value written. -/
def Write.value : Write → Value
  | bit b => Value.bit b
  | bits _ value _ _ => Value.bits value
  | int _ value _ => Value.int value
  | string value _ => Value.string value
  | byteSeq b => Value.byteSeq b

/-- The call of one write operation. -/
def Write.write (buf : ByteBuffer) : Write → Option ByteBuffer
  | bit b => buf.WriteBit b
  | bits n value _ _ => buf.WriteBits value n
  | int width value _ => buf.append (leBytes width.bytes value)
  | string value _ => buf.writeString value
  | byteSeq b => buf.WriteByteSeq b

/-- The call of the read operation that matches a kind of write. A byte of a guid
is first set to its mask bit. -/
def Field.read (buf : ByteBuffer) : Field → Option (Value×ByteBuffer)
  | bit => buf.ReadBit.map fun r => (Value.bit r.1,r.2)
  | bits n _ => (buf.ReadBits 0 n).map fun r => (Value.bits r.1,r.2)
  | int width =>
    (buf.read width.bytes).map fun r => (Value.int (Nat.ofDigits 256 (r.1.map UInt8.toNat)),r.2)
  | string _ => some (Value.string buf.readString.1,buf.readString.2)
  | byteSeq present =>
    (buf.ReadByteSeq (if present then 1 else 0)).map fun r => (Value.byteSeq r.1,r.2)

/-- A sequence of writes. -/
def writeAll : ByteBuffer → List Write → Option ByteBuffer
  | buf,[] => some buf
  | buf,op::ops => do
    let buf←op.write buf
    writeAll buf ops

/-- A sequence of reads and what they returned. -/
def readAll : ByteBuffer → List Field → Option (List Value×ByteBuffer)
  | buf,[] => some ([],buf)
  | buf,field::fields => do
    let (value,buf)←field.read buf
    let (values,buf)←readAll buf fields
    return (value::values,buf)

/-- The bytes of a message: the writes on an empty buffer, ended by `FlushBits`. -/
def written (ops : List Write) : Option (List UInt8) := do
  let buf←writeAll ByteBuffer.new ops
  let buf←buf.FlushBits
  return buf.storage

/-- The message is written, and reading it back gives the values in order and
ends at the end of the buffer. -/
def RoundTrip (ops : List Write) : Prop :=
  ∃ bytes buf,written ops=some bytes ∧
    readAll (ByteBuffer.holding bytes) (ops.map Write.field)=some (ops.map Write.value,buf) ∧
      buf.rpos=buf.size

end Projectnelth.ByteBufferModel
