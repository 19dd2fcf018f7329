import Mathlib
import Projectnelth.RunInvariant

/-!
# Packets that go out

A packet is sent as an encrypted header and its contents. It goes into the output buffer
while there is room and nothing waits in the queue, and into the queue otherwise; what
the peer does not take at once stays for later. The cipher and the compression keep a
state of their own, which the model leaves open.
-/

namespace Projectnelth.WorldSocketOutput

open RunInvariant

/-- `WorldPacket`. -/
structure Packet where
  /-- `m_opcode`. -/
  opcode : UInt32
  contents : List UInt8

/-- The cipher of the headers and the compression of the packets. -/
structure Coder (σ : Type*) where
  /-- `EncryptSend`, in place. -/
  encryptSend : σ → List UInt8 → σ×List UInt8
  /-- `WorldPacket::Compress` of another packet. -/
  compress : σ → Packet → σ×Packet

/-- `ACE_Message_Block`: the bytes up to the write pointer, and the read pointer. -/
structure MessageBlock where
  /-- The bytes that have been written. -/
  buf : List UInt8
  rdPtr : ℕ

/-- The bytes that are still to be read. -/
def MessageBlock.unread (block : MessageBlock) : List UInt8 := block.buf.drop block.rdPtr

/-- `crunch`: the data moves to the base. -/
def MessageBlock.crunch (block : MessageBlock) : MessageBlock := ⟨block.unread,0⟩

def MessageBlock.copy (block : MessageBlock) (bytes : List UInt8) : MessageBlock :=
  { block with buf := block.buf++bytes }

/-- A packet that has been sent. -/
structure Frame where
  packet : Packet
  header : List UInt8
  encrypted : List UInt8

/-- The bytes of a frame. -/
def Frame.bytes (frame : Frame) : List UInt8 := frame.encrypted++frame.packet.contents

/-- `WorldSocket`, with what the output uses of it. -/
structure WorldSocket (σ : Type*) where
  /-- The state of the cipher and the compression. -/
  coder : σ
  closing : Bool
  m_OutBuffer : MessageBlock
  /-- The blocks in `msg_queue()`. -/
  msgQueue : List MessageBlock
  m_OutActive : Bool
  /-- The bytes that the peer has accepted. -/
  accepted : List UInt8

/-- `m_OutBufferSize`. -/
def outBufferSize : ℕ := 65536

def isLargePacket (size : UInt32) : Bool := size > 0x7FFF

/-- `ServerPktHeader`: the bytes of the header. -/
def serverPktHeader (size : UInt32) (cmd : UInt16) : List UInt8 :=
  (if isLargePacket size then [(size >>> 16 &&& 0xFF ||| 0x80).toUInt8] else [])++
    [(size >>> 8 &&& 0xFF).toUInt8,(size &&& 0xFF).toUInt8,
      (cmd &&& 0xFF).toUInt8,(cmd >>> 8 &&& 0xFF).toUInt8]

/-- What a call of `send` does. -/
inductive Answer where
  /-- So many bytes are taken, or all when there are fewer. -/
  | taken (n : ℕ)
  /-- `EWOULDBLOCK`. -/
  | wouldBlock
  /-- Any other error. -/
  | error

section Output
variable {σ : Type*}

/-- `schedule_wakeup_output`; the reactor may fail. -/
def scheduleWakeupOutput (s : WorldSocket σ) (reactor : Bool) : WorldSocket σ×ℤ :=
  if s.m_OutActive then (s,0)
  else ({ s with m_OutActive := true },if reactor then 0 else -1)

/-- `cancel_wakeup_output`; the reactor may fail. -/
def cancelWakeupOutput (s : WorldSocket σ) (reactor : Bool) : WorldSocket σ×ℤ :=
  if !s.m_OutActive then (s,0)
  else ({ s with m_OutActive := false },if reactor then 0 else -1)

def handleOutputQueue (s : WorldSocket σ) (answer : Answer) (reactor : Bool) : WorldSocket σ×ℤ :=
  match s.msgQueue with
  | [] => cancelWakeupOutput s reactor
  | mblk::rest =>
    let released := { s with msgQueue := rest }
    match answer with
    | .error => (released,-1)
    | .wouldBlock => scheduleWakeupOutput { s with msgQueue := mblk::rest } reactor
    | .taken n =>
      let n := min n mblk.unread.length
      let sending := { released with accepted := s.accepted++mblk.unread.take n }
      if n=0 then (released,-1)
      else if n < mblk.unread.length then
        scheduleWakeupOutput
          { sending with msgQueue := { mblk with rdPtr := mblk.rdPtr+n }::rest } reactor
      else if rest=[] then cancelWakeupOutput sending reactor
      else (sending,2)

/-- What happens around a call of `handle_output`. -/
structure Answers where
  buffer : Answer
  queue : Answer
  /-- Whether the reactor wakes up as it is told. -/
  reactor : Bool

def handleOutput (s : WorldSocket σ) (answers : Answers) : WorldSocket σ×ℤ :=
  if s.closing then (s,-1)
  else if s.m_OutBuffer.unread.length=0 then handleOutputQueue s answers.queue answers.reactor
  else
    match answers.buffer with
    | .error => (s,-1)
    | .wouldBlock => scheduleWakeupOutput s answers.reactor
    | .taken n =>
      let n := min n s.m_OutBuffer.unread.length
      let sending := { s with accepted := s.accepted++s.m_OutBuffer.unread.take n }
      if n=0 then (s,-1)
      else if n < s.m_OutBuffer.unread.length then
        let rest : MessageBlock := { s.m_OutBuffer with rdPtr := s.m_OutBuffer.rdPtr+n }
        scheduleWakeupOutput ({ sending with m_OutBuffer := rest.crunch } : WorldSocket σ)
          answers.reactor
      else
        handleOutputQueue ({ sending with m_OutBuffer := ⟨[],0⟩ } : WorldSocket σ)
          answers.queue answers.reactor

/-- The loop in `Update`: a call of `handle_output` for each of the answers, while it goes on. -/
def drain : WorldSocket σ → List Answers → WorldSocket σ×ℤ
  | s,[] => (s,0)
  | s,answers::rest =>
    if (handleOutput s answers).2 > 0 then drain (handleOutput s answers).1 rest
    else handleOutput s answers

def update (s : WorldSocket σ) (timeout : Bool) (answers : List Answers) : WorldSocket σ×ℤ :=
  if s.closing then (s,-1)
  else if timeout then (s,-1)
  else if s.m_OutActive then (s,0)
  else if s.m_OutBuffer.unread.length=0 ∧ s.msgQueue=[] then (s,0)
  else drain s answers

variable (coder : Coder σ)

/-- `SendPacket`; the queue is never full. -/
def sendPacket (s : WorldSocket σ) (packet : Packet) (session : Bool) : WorldSocket σ×ℤ :=
  if s.closing then (s,-1)
  else
    let out :=
      if session && packet.contents.length > 0x400 then coder.compress s.coder packet
      else (s.coder,packet)
    let header := serverPktHeader (UInt32.ofNat (out.2.contents.length+2)) out.2.opcode.toUInt16
    let encrypted := coder.encryptSend out.1 header
    let mb : MessageBlock := { buf := encrypted.2++out.2.contents, rdPtr := 0 }
    let s := { s with coder := encrypted.1 }
    if outBufferSize-s.m_OutBuffer.buf.length ≥ out.2.contents.length+header.length ∧
        s.msgQueue=[] then
      ({ s with m_OutBuffer := (s.m_OutBuffer.copy encrypted.2).copy out.2.contents },0)
    else ({ s with msgQueue := s.msgQueue++[mb] },0)

/-- What happens to a socket. -/
inductive Op (σ : Type*) where
  | sendPacket (packet : Packet) (session : Bool)
  | handleOutput (answers : Answers)
  | update (timeout : Bool) (answers : List Answers)
  | closeSocket
  /-- The cipher is set up anew. -/
  | init (state : σ)

/-- The frame that a packet is to go out as, and the coder behind it. -/
def frameOf (state : σ) (packet : Packet) (session : Bool) : σ×Frame :=
  let out :=
    if session && packet.contents.length > 0x400 then coder.compress state packet
    else (state,packet)
  let header := serverPktHeader (UInt32.ofNat (out.2.contents.length+2)) out.2.opcode.toUInt16
  let encrypted := coder.encryptSend out.1 header
  (encrypted.1,⟨out.2,header,encrypted.2⟩)

/-- A socket and what was asked of it. -/
structure Traffic (σ : Type*) where
  socket : WorldSocket σ
  /-- The coder that the next packet is to meet. -/
  coder : σ
  /-- The frames of the packets for which `SendPacket` has returned 0, in the order of the calls. -/
  sent : List Frame

/-- A socket is closed when its output fails. -/
def closeOnFailure (result : WorldSocket σ×ℤ) : WorldSocket σ :=
  if result.2=-1 then { result.1 with closing := true } else result.1

/-- One operation. -/
def step (t : Traffic σ) : Op σ → Traffic σ
  | .sendPacket packet session =>
    let result := sendPacket coder t.socket packet session
    let frame := frameOf coder t.coder packet session
    if result.2=0 then ⟨result.1,frame.1,t.sent++[frame.2]⟩ else { t with socket := result.1 }
  | .handleOutput answers =>
    { t with socket := closeOnFailure (handleOutput t.socket answers) }
  | .update timeout answers =>
    { t with socket := closeOnFailure (update t.socket timeout answers) }
  | .closeSocket => { t with socket := { t.socket with closing := true } }
  | .init state => { t with socket := { t.socket with coder := state }, coder := state }

/-- A socket that is open. -/
def opened (state : σ) : Traffic σ :=
  { socket :=
      { coder := state
        closing := false
        m_OutBuffer := ⟨[],0⟩
        msgQueue := []
        m_OutActive := true
        accepted := [] }
    coder := state
    sent := [] }

/-- The bytes that the peer has accepted, and those that wait. -/
def WorldSocket.stream (s : WorldSocket σ) : List UInt8 :=
  s.accepted++(s.m_OutBuffer.unread++(s.msgQueue.map MessageBlock.unread).flatten)

/-- What a client reads in the first bytes of a packet: a length and an opcode. -/
def clientRule : List UInt8 → Option (ℕ×ℕ)
  | b₀::b₁::b₂::b₃::rest =>
    if b₀.toNat < 128 then some (b₀.toNat*256+b₁.toNat,b₂.toNat+b₃.toNat*256)
    else
      match rest with
      | b₄::_ => some ((b₀.toNat-128)*65536+b₁.toNat*256+b₂.toNat,b₃.toNat+b₄.toNat*256)
      | [] => none
  | _ => none

end Output

section Header

theorem toNat_low (n : UInt32) : (n &&& 0xFF).toUInt8.toNat=n.toNat%256 := by
  rw [UInt32.toNat_toUInt8,UInt32.toNat_and]
  exact (congrArg (·%256) (Nat.and_two_pow_sub_one_eq_mod n.toNat 8)).trans (Nat.mod_mod _ _)

theorem toNat_low16 (n : UInt16) : (n &&& 0xFF).toUInt8.toNat=n.toNat%256 := by
  rw [UInt16.toNat_toUInt8,UInt16.toNat_and]
  exact (congrArg (·%256) (Nat.and_two_pow_sub_one_eq_mod n.toNat 8)).trans (Nat.mod_mod _ _)

/-- The command is recovered from its two bytes. -/
theorem cmd_bytes (cmd : UInt16) :
    (cmd &&& 0xFF).toUInt8.toNat+(cmd >>> 8 &&& 0xFF).toUInt8.toNat*256=cmd.toNat := by
  have hlt := cmd.toNat_lt
  have hshift : (cmd >>> 8).toNat=cmd.toNat/256 := Nat.shiftRight_eq_div_pow _ 8
  rw [toNat_low16,toNat_low16,hshift]
  omega

theorem high_byte {size : UInt32} (h : size.toNat < 2^23) :
    (size >>> 16 &&& 0xFF ||| 0x80).toUInt8.toNat=size.toNat/65536+128 := by
  have hshift : (size >>> 16).toNat=size.toNat/65536 := Nat.shiftRight_eq_div_pow _ 16
  have hand : (size >>> 16 &&& 0xFF).toNat=size.toNat/65536 := by
    rw [UInt32.toNat_and,hshift]
    refine (Nat.and_two_pow_sub_one_eq_mod _ 8).trans (Nat.mod_eq_of_lt ?_)
    omega
  have hor : size.toNat/65536 ||| 128=size.toNat/65536+128 := by
    have hdisjoint := Nat.two_pow_add_eq_or_of_lt (i := 7) (b := size.toNat/65536)
      (by omega) 1
    rw [Nat.or_comm,Nat.add_comm]
    exact hdisjoint.symm
  rw [UInt32.toNat_toUInt8,UInt32.toNat_or,hand]
  refine (congrArg (·%256) hor).trans (Nat.mod_eq_of_lt ?_)
  omega

theorem clientRule_serverPktHeader {size : UInt32} (cmd : UInt16) (h : size.toNat < 2^23) :
    clientRule (serverPktHeader size cmd)=some (size.toNat,cmd.toNat) := by
  have hlow := toNat_low size
  have hmiddle := toNat_low (size >>> 8)
  have hshift : (size >>> 8).toNat=size.toNat/256 := Nat.shiftRight_eq_div_pow _ 8
  have hcmd := cmd_bytes cmd
  have hhigh := high_byte h
  rw [hshift] at hmiddle
  unfold serverPktHeader
  split
  · rename_i hlarge
    have hlarge' : 0x7FFF < size.toNat := UInt32.lt_iff_toNat_lt.mp (of_decide_eq_true hlarge)
    simp only [List.cons_append,List.nil_append,clientRule]
    rw [if_neg (by omega),hhigh,hmiddle,hlow,hcmd]
    congr 2
    omega
  · rename_i hsmall
    have hsmall' : ¬0x7FFF < size.toNat := fun hlt =>
      hsmall (decide_eq_true (UInt32.lt_iff_toNat_lt.mpr hlt))
    simp only [List.nil_append,clientRule]
    rw [if_pos (by omega),hmiddle,hlow,hcmd]
    congr 2
    omega

end Header

section Streams
variable {σ : Type*} {s : WorldSocket σ}

/-- What a call for output leaves as it is, and the stream when it does not fail. -/
structure Kept (s : WorldSocket σ) (result : WorldSocket σ×ℤ) : Prop where
  coder : result.1.coder=s.coder
  /-- Whether the socket is closed. -/
  closing : result.1.closing=s.closing
  base : result.1.m_OutBuffer.rdPtr=0
  /-- The bytes in their order. -/
  stream : result.2≠ -1 → result.1.stream=s.stream

theorem kept_schedule (h : s.m_OutBuffer.rdPtr=0) (reactor : Bool) :
    Kept s (scheduleWakeupOutput s reactor) := by
  unfold scheduleWakeupOutput
  split <;> exact ⟨rfl,rfl,h,fun _ => rfl⟩

theorem kept_cancel (h : s.m_OutBuffer.rdPtr=0) (reactor : Bool) :
    Kept s (cancelWakeupOutput s reactor) := by
  unfold cancelWakeupOutput
  split <;> exact ⟨rfl,rfl,h,fun _ => rfl⟩

/-- What is kept by two steps, one after the other. -/
theorem Kept.after {between : WorldSocket σ} {result : WorldSocket σ×ℤ}
    (hresult : Kept between result) (hcoder : between.coder=s.coder)
    (hclosing : between.closing=s.closing) (hstream : between.stream=s.stream) : Kept s result :=
  ⟨hresult.coder.trans hcoder,hresult.closing.trans hclosing,hresult.base,
    fun hok => (hresult.stream hok).trans hstream⟩

/-- The queue gives its bytes from its head. -/
theorem kept_handleOutputQueue (h : s.m_OutBuffer.rdPtr=0) (hempty : s.m_OutBuffer.unread=[])
    (answer : Answer) (reactor : Bool) : Kept s (handleOutputQueue s answer reactor) := by
  unfold handleOutputQueue
  split
  · exact kept_cancel h reactor
  rename_i mblk rest hqueue
  have hstream : s.stream=s.accepted++(mblk.unread++(rest.map MessageBlock.unread).flatten) := by
    unfold WorldSocket.stream
    rw [hempty,hqueue]
    rfl
  dsimp only
  split
  · exact ⟨rfl,rfl,h,fun hok => absurd rfl hok⟩
  · refine (kept_schedule (s := { s with msgQueue := mblk::rest }) h reactor).after rfl rfl ?_
    rw [←hqueue]
  rename_i n
  generalize hn : min n mblk.unread.length=m
  split
  · exact ⟨rfl,rfl,h,fun hok => absurd rfl hok⟩
  split
  · refine Kept.after (kept_schedule ?_ reactor) rfl rfl ?_
    · exact h
    rw [hstream]
    unfold WorldSocket.stream
    dsimp only
    rw [hempty,List.nil_append,List.map_cons,List.flatten_cons,List.append_assoc,
      ←List.append_assoc (List.take m _)]
    unfold MessageBlock.unread
    dsimp only
    rw [←List.drop_drop,List.take_append_drop]
  · rename_i hless
    have htake : mblk.unread.take m=mblk.unread :=
      List.take_of_length_le (Nat.not_lt.mp hless)
    have hsending : WorldSocket.stream
        { s with
          msgQueue := rest
          accepted := s.accepted++mblk.unread.take m }=s.stream := by
      rw [hstream,htake]
      unfold WorldSocket.stream
      dsimp only
      rw [hempty,List.nil_append,List.append_assoc]
    split
    · refine Kept.after (kept_cancel ?_ reactor) rfl rfl hsending
      exact h
    · exact ⟨rfl,rfl,h,fun _ => hsending⟩

theorem kept_handleOutput (h : s.m_OutBuffer.rdPtr=0) (answers : Answers) :
    Kept s (handleOutput s answers) := by
  unfold handleOutput
  split
  · exact ⟨rfl,rfl,h,fun hok => absurd rfl hok⟩
  split
  · rename_i hempty
    exact kept_handleOutputQueue h (List.length_eq_zero_iff.mp hempty) _ _
  split
  · exact ⟨rfl,rfl,h,fun hok => absurd rfl hok⟩
  · exact kept_schedule h _
  rename_i n _
  dsimp only
  generalize hn : min n s.m_OutBuffer.unread.length=m
  split
  · exact ⟨rfl,rfl,h,fun hok => absurd rfl hok⟩
  split
  · refine (kept_schedule rfl _).after rfl rfl ?_
    unfold WorldSocket.stream MessageBlock.crunch MessageBlock.unread
    dsimp only
    rw [List.drop_zero,List.append_assoc,←List.append_assoc (List.take m _),
      ←List.drop_drop,List.take_append_drop]
  · rename_i hless
    refine (kept_handleOutputQueue rfl rfl _ _).after rfl rfl ?_
    have htake : s.m_OutBuffer.unread.take m=s.m_OutBuffer.unread :=
      List.take_of_length_le (Nat.not_lt.mp hless)
    rw [htake]
    unfold WorldSocket.stream
    rw [List.append_assoc]
    rfl

theorem kept_drain (h : s.m_OutBuffer.rdPtr=0) (answers : List Answers) :
    Kept s (drain s answers) := by
  induction answers generalizing s with
  | nil => exact ⟨rfl,rfl,h,fun _ => rfl⟩
  | cons answers rest ih =>
    have hfirst := kept_handleOutput h answers
    unfold drain
    split
    · rename_i hmore
      refine (ih hfirst.base).after hfirst.coder hfirst.closing (hfirst.stream ?_)
      omega
    · exact hfirst

theorem kept_update (h : s.m_OutBuffer.rdPtr=0) (timeout : Bool) (answers : List Answers) :
    Kept s (update s timeout answers) := by
  unfold update
  split
  · exact ⟨rfl,rfl,h,fun hok => absurd rfl hok⟩
  split
  · exact ⟨rfl,rfl,h,fun hok => absurd rfl hok⟩
  split
  · exact ⟨rfl,rfl,h,fun _ => rfl⟩
  · split
    · exact ⟨rfl,rfl,h,fun _ => rfl⟩
    · exact kept_drain h answers

/-- What holds of a socket at all times. -/
structure Ordered (t : Traffic σ) : Prop where
  base : t.socket.m_OutBuffer.rdPtr=0
  /-- The next packet meets the coder that it is to meet. -/
  coder : t.socket.coder=t.coder
  /-- While the socket is open, the bytes that were taken and those that wait are the
  frames of the packets that were sent, in their order. -/
  stream : t.socket.closing=false → t.socket.stream=(t.sent.map Frame.bytes).flatten
  /-- A client recovers the length and the opcode of each packet. -/
  header : ∀ frame∈t.sent,frame.packet.contents.length+2 < 2^23 →
    clientRule frame.header=
      some (frame.packet.contents.length+2,frame.packet.opcode.toUInt16.toNat)

variable {t : Traffic σ}

theorem Ordered.close (h : Ordered t) {result : WorldSocket σ×ℤ} (hkept : Kept t.socket result) :
    Ordered { t with socket := closeOnFailure result } := by
  unfold closeOnFailure
  split
  · exact ⟨hkept.base,hkept.coder.trans h.coder,fun hopen => (by cases hopen),h.header⟩
  rename_i hok
  refine ⟨hkept.base,hkept.coder.trans h.coder,fun hopen => ?_,h.header⟩
  exact (hkept.stream hok).trans (h.stream (hkept.closing ▸ hopen))

theorem clientRule_frameOf (coder : Coder σ) (state : σ) (packet : Packet) (session : Bool)
    (hlength : (frameOf coder state packet session).2.packet.contents.length+2 < 2^23) :
    clientRule (frameOf coder state packet session).2.header=
      some ((frameOf coder state packet session).2.packet.contents.length+2,
        (frameOf coder state packet session).2.packet.opcode.toUInt16.toNat) := by
  unfold frameOf at hlength ⊢
  dsimp only at hlength ⊢
  generalize (if session && packet.contents.length > 0x400 then coder.compress state packet
    else (state,packet))=out at hlength ⊢
  have hsize : (UInt32.ofNat (out.2.contents.length+2)).toNat=out.2.contents.length+2 :=
    UInt32.toNat_ofNat_of_lt' (hlength.trans (by decide))
  rw [clientRule_serverPktHeader _ (hsize.trans_lt hlength),hsize]

/-- What `SendPacket` does to an open socket: the bytes of the packet's frame go behind all that
waits, and the coder goes on. -/
theorem sendPacket_stream {s : WorldSocket σ} (hbase : s.m_OutBuffer.rdPtr=0)
    (hopen : s.closing=false) (coder : Coder σ) (packet : Packet) (session : Bool) :
    (sendPacket coder s packet session).2=0 ∧
      (sendPacket coder s packet session).1.m_OutBuffer.rdPtr=0 ∧
      (sendPacket coder s packet session).1.coder=(frameOf coder s.coder packet session).1 ∧
      (sendPacket coder s packet session).1.stream=
        s.stream++(frameOf coder s.coder packet session).2.bytes := by
  unfold sendPacket frameOf
  rw [if_neg (hopen ▸ Bool.false_ne_true)]
  dsimp only
  generalize (if session && packet.contents.length > 0x400 then coder.compress s.coder packet
    else (s.coder,packet))=out
  split
  · rename_i hroom
    refine ⟨rfl,hbase,rfl,?_⟩
    unfold WorldSocket.stream MessageBlock.copy MessageBlock.unread Frame.bytes
    dsimp only
    rw [hbase,hroom.2]
    simp only [List.drop_zero,List.map_nil,List.flatten_nil,List.append_nil,List.append_assoc]
  · refine ⟨rfl,hbase,rfl,?_⟩
    unfold WorldSocket.stream MessageBlock.unread Frame.bytes
    simp only [List.map_append,List.map_cons,List.map_nil,List.flatten_append,List.flatten_cons,
      List.flatten_nil,List.drop_zero,List.append_nil,List.append_assoc]

/-- A packet goes behind all that waits. -/
theorem Ordered.sendPacket (h : Ordered t) (coder : Coder σ) (packet : Packet) (session : Bool) :
    Ordered (step coder t (.sendPacket packet session)) := by
  unfold step
  dsimp only
  cases hclosing : t.socket.closing with
  | true =>
    have hrefused : WorldSocketOutput.sendPacket coder t.socket packet session=(t.socket,-1) :=
      if_pos hclosing
    rw [hrefused]
    exact h
  | false =>
    obtain ⟨hresult,hbase,hcoder,hstream⟩ :=
      sendPacket_stream h.base hclosing coder packet session
    rw [h.coder] at hcoder hstream
    rw [if_pos hresult]
    refine ⟨hbase,hcoder,fun _ => ?_,fun frame hframe => ?_⟩
    · dsimp only
      rw [hstream,h.stream hclosing,List.map_append,List.flatten_append,List.map_singleton,
        List.flatten_singleton]
    · rcases List.mem_append.mp hframe with hold | hnew
      · exact h.header frame hold
      · rw [List.mem_singleton.mp hnew]
        exact clientRule_frameOf coder t.coder packet session

theorem ordered_step (coder : Coder σ) (t : Traffic σ) (op : Op σ) (h : Ordered t) :
    Ordered (step coder t op) := by
  cases op with
  | sendPacket packet session => exact h.sendPacket coder packet session
  | handleOutput answers => exact h.close (kept_handleOutput h.base answers)
  | update timeout answers => exact h.close (kept_update h.base timeout answers)
  | closeSocket => exact ⟨h.base,h.coder,fun hopen => (by cases hopen),h.header⟩
  | init state => exact ⟨h.base,rfl,h.stream,h.header⟩

end Streams

/-- In every run, while the socket is open, the bytes that the peer has accepted and those
that wait are the frames of the packets for which `SendPacket` has returned 0, in the order of the
calls, and a client recovers the length and the opcode of each packet from its header. -/
theorem output_order {σ : Type*} (coder : Coder σ) (state : σ) (ops : List (Op σ)) :
    Ordered (run (step coder) (opened state) ops) := by
  refine run_invariant_always (fun t op h => ordered_step coder t op h) ?_ ops
  exact ⟨rfl,rfl,fun _ => rfl,fun _ h => (by cases h)⟩

/-- A cipher that counts the bytes it has seen, and a compression that keeps the first byte. -/
def counting : Coder UInt8 where
  encryptSend n bytes := (n+UInt8.ofNat bytes.length,bytes.map (·+n))
  compress n packet := (n,⟨packet.opcode,packet.contents.take 1⟩)

/-- Two packets, of which the peer takes five bytes between the calls. -/
theorem output_order_counting :
    let t := run (step counting) (opened 1)
      [.sendPacket ⟨0x1ec,[7]⟩ true,.handleOutput ⟨.taken 5,.wouldBlock,true⟩,
        .sendPacket ⟨0x4a,[8,9]⟩ false]
    t.socket.accepted=[1,4,0xed,2,7] ∧ t.socket.stream=(t.sent.map Frame.bytes).flatten ∧
      t.socket.stream=[1,4,0xed,2,7,5,9,0x4f,5,8,9] := by
  intro t
  have hordered : Ordered t := output_order counting 1 _
  exact ⟨rfl,hordered.stream rfl,rfl⟩

end Projectnelth.WorldSocketOutput
