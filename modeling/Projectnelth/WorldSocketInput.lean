import Mathlib

/-!
# Packets that come in

A client socket gathers what it receives in two buffers: the header of the next packet,
and its payload once the header has been decrypted. The cipher and the handler of the
packets keep a state of their own, which the model leaves open; what is given to them is
written down.
-/

namespace Projectnelth.WorldSocketInput

/-- The cipher of the headers and the handler of the packets. -/
structure Peer (σ : Type*) where
  /-- `DecryptRecv`, in place. -/
  decryptRecv : σ → List UInt8 → σ×List UInt8
  /-- A header keeps its length. -/
  length_decryptRecv : ∀ s bytes,(decryptRecv s bytes).2.length=bytes.length
  /-- `ProcessIncoming` of an opcode and a payload; true when it returns -1. -/
  processIncoming : σ → UInt32 → List UInt8 → σ×Bool

/-- The state behind a socket, and what has been given to it. -/
structure World (σ : Type*) where
  state : σ
  /-- The packets handed to `ProcessIncoming`. -/
  handed : List (UInt32×List UInt8)
  /-- The headers given to `DecryptRecv`. -/
  decrypted : List (List UInt8)

/-- `WorldSocket`, with what the receive path uses of it. -/
structure WorldSocket (σ : Type*) where
  /-- The world behind the socket. -/
  world : World σ
  /-- `m_Header`: the bytes of the header so far. -/
  m_Header : List UInt8
  /-- `m_RecvWPct`: the opcode of the packet that is received. -/
  m_RecvWPct : Option UInt32
  /-- `m_RecvPct`: the bytes of its contents so far. -/
  m_RecvPct : List UInt8
  m_RecvPctSize : ℕ

/-- How a function of the receive path returns. -/
inductive Ret where
  /-- A value that is not -1. -/
  | ok (value : ℕ)
  /-- -1, with `errno` at `EWOULDBLOCK`. -/
  | wouldBlock
  /-- -1, with `errno` at `EINVAL`. -/
  | invalid
  /-- An assertion does not hold. -/
  | failed
  deriving DecidableEq

/-- `sizeof(ClientPktHeader)`. -/
def headerSize : ℕ := 6

/-- `m_Header.space()`. -/
def WorldSocket.headerSpace {σ : Type*} (s : WorldSocket σ) : ℕ := headerSize-s.m_Header.length

/-- `m_RecvPct.space()`. -/
def WorldSocket.payloadSpace {σ : Type*} (s : WorldSocket σ) : ℕ :=
  s.m_RecvPctSize-s.m_RecvPct.length

/-- The size in a header, in big-endian order. -/
def sizeOf (header : List UInt8) : UInt16 :=
  (header.getD 0 0).toUInt16 <<< 8 ||| (header.getD 1 0).toUInt16

/-- The command in a header, in little-endian order. -/
def cmdOf (header : List UInt8) : UInt32 :=
  (header.getD 2 0).toUInt32 ||| (header.getD 3 0).toUInt32 <<< 8 |||
    (header.getD 4 0).toUInt32 <<< 16 ||| (header.getD 5 0).toUInt32 <<< 24

/-- The header of a packet that is not accepted. -/
def malformed (header : List UInt8) : Bool :=
  sizeOf header < 4 || sizeOf header > 10240 || (cmdOf header > 0xFFFF && cmdOf header >>> 16≠0x4C52)

def dropHighBytes (opcode : UInt32) : UInt32 := opcode &&& 0xFFFF

section Receive
variable {σ : Type*} (peer : Peer σ)

/-- A header is decrypted. -/
def World.decrypt (w : World σ) (header : List UInt8) : World σ×List UInt8 :=
  let result := peer.decryptRecv w.state header
  ({ w with state := result.1, decrypted := w.decrypted++[header] },result.2)

/-- A packet is handed on. -/
def World.process (w : World σ) (opcode : UInt32) (payload : List UInt8) : World σ×Bool :=
  let result := peer.processIncoming w.state opcode payload
  ({ w with state := result.1, handed := w.handed++[(opcode,payload)] },result.2)

def handleInputHeader (s : WorldSocket σ) : WorldSocket σ×Ret :=
  if s.m_RecvWPct.isSome then (s,.failed)
  else if s.m_Header.length≠headerSize then (s,.failed)
  else
    let result := s.world.decrypt peer s.m_Header
    let s := { s with world := result.1, m_Header := result.2 }
    if malformed s.m_Header then (s,.invalid)
    else
      let size := sizeOf s.m_Header-4
      let s := { s with m_RecvWPct := some (dropHighBytes (cmdOf s.m_Header)) }
      if size > 0 then ({ s with m_RecvPct := [], m_RecvPctSize := size.toNat },.ok 0)
      else if s.payloadSpace≠0 then (s,.failed)
      else (s,.ok 0)

def handleInputPayload (s : WorldSocket σ) : WorldSocket σ×Ret :=
  if s.payloadSpace≠0 then (s,.failed)
  else if s.headerSpace≠0 then (s,.failed)
  else
    match s.m_RecvWPct with
    | none => (s,.failed)
    | some opcode =>
      let result := s.world.process peer opcode s.m_RecvPct
      ({ world := result.1
         m_Header := []
         m_RecvWPct := none
         m_RecvPct := []
         m_RecvPctSize := 0 },if result.2 then .invalid else .ok 0)

/-- The header is received. -/
def receiveHeader (s : WorldSocket σ) (block : List UInt8) : (WorldSocket σ×List UInt8)×Ret :=
  if s.headerSpace > 0 then
    let toHeader := if block.length > s.headerSpace then s.headerSpace else block.length
    let s := { s with m_Header := s.m_Header++block.take toHeader }
    let block := block.drop toHeader
    if s.headerSpace > 0 then ((s,block),if block.length=0 then .wouldBlock else .failed)
    else
      let result := handleInputHeader peer s
      ((result.1,block),result.2)
  else ((s,block),.ok 0)

/-- The payload is received. -/
def receivePayload (s : WorldSocket σ) (block : List UInt8) : (WorldSocket σ×List UInt8)×Ret :=
  if s.m_RecvWPct.isNone then ((s,block),.invalid)
  else if s.payloadSpace > 0 then
    let toData := if block.length > s.payloadSpace then s.payloadSpace else block.length
    let s := { s with m_RecvPct := s.m_RecvPct++block.take toData }
    let block := block.drop toData
    if s.payloadSpace > 0 then ((s,block),if block.length=0 then .wouldBlock else .failed)
    else ((s,block),.ok 0)
  else ((s,block),.ok 0)

/-- A turn of the receive loop after the header. -/
def receivePacket (s : WorldSocket σ) (block : List UInt8) : (WorldSocket σ×List UInt8)×Ret :=
  match receivePayload s block with
  | ((s,block),.ok _) =>
    let result := handleInputPayload peer s
    ((result.1,block),result.2)
  | ((s,block),ret) => ((s,block),ret)

/-- A turn of the receive loop. -/
def receiveTurn (s : WorldSocket σ) (block : List UInt8) : (WorldSocket σ×List UInt8)×Ret :=
  match receiveHeader peer s block with
  | ((s,block),.ok _) => receivePacket peer s block
  | ((s,block),ret) => ((s,block),ret)

/-- The turns of the receive loop; none is left only if the loop does not come to an end. -/
def receiveLoop : ℕ → WorldSocket σ → List UInt8 → WorldSocket σ×Ret
  | 0,s,_ => (s,.failed)
  | turns+1,s,block =>
    if block.length=0 then (s,.ok 0)
    else
      match receiveTurn peer s block with
      | ((s,block),.ok _) => receiveLoop turns s block
      | ((s,_),ret) => (s,ret)

/-- `handle_input_missing_data` of what `recv` has put into the buffer of 4096 bytes. -/
def handleInputMissingData (s : WorldSocket σ) (received : List UInt8) : WorldSocket σ×Ret :=
  match receiveLoop peer (received.length+1) s received with
  | (s,.ok _) => (s,.ok (if received.length=4096 then 1 else 2))
  | (s,ret) => (s,ret)

/-- What a single `recv` gives. -/
abbrev Chunk := { bytes : List UInt8 // 1 ≤ bytes.length ∧ bytes.length ≤ 4096 }

/-- `handle_input`, chunk after chunk, until the connection is refused. -/
def handleInput : WorldSocket σ → List Chunk → WorldSocket σ×Ret
  | s,[] => (s,.ok 0)
  | s,chunk::chunks =>
    match handleInputMissingData peer s chunk.1 with
    | (s,.invalid) => (s,.invalid)
    | (s,.failed) => (s,.failed)
    | (s,_) => handleInput s chunks

/-- A socket that has received nothing. -/
def opened (state : σ) : WorldSocket σ :=
  { world := { state := state, handed := [], decrypted := [] }
    m_Header := []
    m_RecvWPct := none
    m_RecvPct := []
    m_RecvPctSize := 0 }

end Receive

end Projectnelth.WorldSocketInput
