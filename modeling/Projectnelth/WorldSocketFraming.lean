import Mathlib
import Projectnelth.WorldSocketInput

/-!
# Frames of an input stream

However a stream is split into chunks, the socket hands on the frames that the whole
stream is cut into: a header of six bytes, decrypted once, and as many bytes of payload
as it says. What remains at the end of a chunk is held for the next one.
-/

namespace Projectnelth.WorldSocketInput

/-- What is left of a stream after its frames. -/
inductive Held where
  /-- A part of a header. -/
  | header (bytes : List UInt8)
  /-- A decrypted header, and a part of the payload it announces. -/
  | payload (header bytes : List UInt8)
  /-- The connection is refused. -/
  | refused

/-- The size of the payload that a header announces. -/
def payloadSize (header : List UInt8) : ℕ := (sizeOf header-4).toNat

section Framing
variable {σ : Type*} (peer : Peer σ)

/-- A stream is cut into frames. -/
def cut (w : World σ) (stream : List UInt8) : World σ×Held :=
  if stream.length < headerSize then (w,.header stream)
  else
    let opened := w.decrypt peer (stream.take headerSize)
    let rest := stream.drop headerSize
    if malformed opened.2 then (opened.1,.refused)
    else if rest.length < payloadSize opened.2 then (opened.1,.payload opened.2 rest)
    else
      let done := opened.1.process peer (dropHighBytes (cmdOf opened.2))
        (rest.take (payloadSize opened.2))
      if done.2 then (done.1,.refused) else cut done.1 (rest.drop (payloadSize opened.2))
termination_by stream.length
decreasing_by
  simp only [List.length_drop,headerSize] at *
  omega

/-- The stream goes on after a header. -/
def cutPayload (w : World σ) (header stream : List UInt8) : World σ×Held :=
  if stream.length < payloadSize header then (w,.payload header stream)
  else
    let done := w.process peer (dropHighBytes (cmdOf header)) (stream.take (payloadSize header))
    if done.2 then (done.1,.refused) else cut peer done.1 (stream.drop (payloadSize header))

/-- The stream goes on after what is held of it. -/
def cutHeld (w : World σ) : Held → List UInt8 → World σ×Held
  | .header bytes,stream => cut peer w (bytes++stream)
  | .payload header bytes,stream => cutPayload peer w header (bytes++stream)
  | .refused,_ => (w,.refused)

variable {peer} {w : World σ} {stream more : List UInt8}

theorem cut_short (h : stream.length < headerSize) : cut peer w stream=(w,.header stream) := by
  rw [cut,if_pos h]

theorem cut_header (h : headerSize ≤ stream.length) :
    cut peer w stream=
      if malformed (w.decrypt peer (stream.take headerSize)).2 then
        ((w.decrypt peer (stream.take headerSize)).1,.refused)
      else cutPayload peer (w.decrypt peer (stream.take headerSize)).1
        (w.decrypt peer (stream.take headerSize)).2 (stream.drop headerSize) := by
  rw [cut,if_neg (Nat.not_lt.mpr h)]
  rfl

/-- A stream may be cut in two pieces. -/
theorem cutHeld_cut (w : World σ) (stream more : List UInt8) :
    cutHeld peer (cut peer w stream).1 (cut peer w stream).2 more=cut peer w (stream++more) := by
  induction hlength : stream.length using Nat.strong_induction_on generalizing w stream with
  | _ length ih =>
    by_cases hshort : stream.length < headerSize
    · rw [cut_short hshort]
      rfl
    have hlong := Nat.not_lt.mp hshort
    have hmore : headerSize ≤ (stream++more).length := by
      rw [List.length_append]
      exact Nat.le_add_right_of_le hlong
    rw [cut_header hlong,cut_header hmore,List.take_append_of_le_length hlong,
      List.drop_append_of_le_length hlong]
    generalize w.decrypt peer (stream.take headerSize)=opened
    split
    · rfl
    unfold cutPayload
    have hrest : (stream.drop headerSize).length < length := by
      rw [List.length_drop,hlength]
      exact Nat.sub_lt (by unfold headerSize at hlong; omega) (by decide)
    generalize stream.drop headerSize=rest at hrest
    by_cases hpart : rest.length < payloadSize opened.2
    · rw [if_pos hpart]
      rfl
    have hfull := Nat.not_lt.mp hpart
    have hlonger : ¬(rest++more).length < payloadSize opened.2 := by
      rw [List.length_append]
      omega
    rw [if_neg hpart,if_neg hlonger,List.take_append_of_le_length hfull,
      List.drop_append_of_le_length hfull]
    dsimp only
    split
    · rfl
    · exact ih _ (by rw [List.length_drop]; omega) _ _ rfl

/-- A stream may be cut in two pieces after a header, too. -/
theorem cutHeld_cutPayload (w : World σ) (header stream more : List UInt8) :
    cutHeld peer (cutPayload peer w header stream).1 (cutPayload peer w header stream).2 more=
      cutPayload peer w header (stream++more) := by
  by_cases hpart : stream.length < payloadSize header
  · rw [cutPayload,if_pos hpart]
    rfl
  have hfull := Nat.not_lt.mp hpart
  have hlonger : ¬(stream++more).length < payloadSize header := by
    rw [List.length_append]
    omega
  unfold cutPayload
  rw [if_neg hpart,if_neg hlonger,List.take_append_of_le_length hfull,
    List.drop_append_of_le_length hfull]
  dsimp only
  split
  · rfl
  · exact cutHeld_cut _ _ _

/-- Going on twice is going on once. -/
theorem cutHeld_append (w : World σ) (held : Held) (stream more : List UInt8) :
    cutHeld peer (cutHeld peer w held stream).1 (cutHeld peer w held stream).2 more=
      cutHeld peer w held (stream++more) := by
  cases held with
  | header bytes =>
    refine (cutHeld_cut w (bytes++stream) more).trans ?_
    rw [List.append_assoc]
    rfl
  | payload header bytes =>
    refine (cutHeld_cutPayload w header (bytes++stream) more).trans ?_
    rw [List.append_assoc]
    rfl
  | refused => rfl

/-- What is held is less than what is waited for. -/
def Held.Proper : Held → Prop
  | .header bytes => bytes.length < headerSize
  | .payload head bytes => head.length=headerSize ∧ bytes.length < payloadSize head
  | .refused => True

/-- The socket that holds a part of a packet. -/
def holding (w : World σ) : Held → WorldSocket σ
  | .payload header bytes =>
    { world := w
      m_Header := header
      m_RecvWPct := some (dropHighBytes (cmdOf header))
      m_RecvPct := bytes
      m_RecvPctSize := payloadSize header }
  | .header bytes => { opened w.state with world := w, m_Header := bytes }
  | .refused => { opened w.state with world := w }

/-- The socket has come as far as the frames have. -/
def Agrees (out : WorldSocket σ×Ret) (reached : World σ×Held) : Prop :=
  match reached.2 with
  | .refused => out.2=.invalid ∧ out.1.world=reached.1
  | held => out.1=holding reached.1 held ∧ (out.2=.wouldBlock ∨ ∃ n,out.2=.ok n) ∧ held.Proper

theorem receivePacket_spec {header bytes block : List UInt8} (hheader : header.length=headerSize)
    (hbytes : bytes.length ≤ payloadSize header) :
    receivePacket peer (holding w (.payload header bytes)) block=
      if (bytes++block).length < payloadSize header then
        ((holding w (.payload header (bytes++block)),[]),.wouldBlock)
      else
        let done := w.process peer (dropHighBytes (cmdOf header))
          ((bytes++block).take (payloadSize header))
        ((holding done.1 (.header []),(bytes++block).drop (payloadSize header)),
          if done.2 then .invalid else .ok 0) := by
  unfold receivePacket receivePayload handleInputPayload WorldSocket.payloadSpace
    WorldSocket.headerSpace holding
  simp only [List.length_append,Option.isNone_some,Bool.false_eq_true,if_false,ne_eq]
  by_cases hspace : payloadSize header-bytes.length > 0
  · rw [if_pos hspace]
    by_cases hless : bytes.length+block.length < payloadSize header
    · have hle : ¬block.length > payloadSize header-bytes.length := by omega
      simp only [if_pos hless,if_neg hle,List.take_length,List.drop_length,
        List.length_nil,if_true]
      rw [if_pos (by omega)]
    · have hn : (if block.length > payloadSize header-bytes.length then
          payloadSize header-bytes.length else block.length)=payloadSize header-bytes.length := by
        split <;> omega
      have htake : (bytes++block).take (payloadSize header)=
          bytes++block.take (payloadSize header-bytes.length) := by
        rw [List.take_append,List.take_of_length_le hbytes]
      have hdrop : (bytes++block).drop (payloadSize header)=
          block.drop (payloadSize header-bytes.length) := by
        rw [List.drop_append,List.drop_of_length_le hbytes,List.nil_append]
      have hfull : payloadSize header-
          (bytes.length+(block.take (payloadSize header-bytes.length)).length)=0 := by
        rw [List.length_take]
        omega
      rw [if_neg hless,hn,htake,hdrop]
      simp only [List.length_append,hfull,hheader,Nat.sub_self,gt_iff_lt,Nat.lt_irrefl,if_false,
        not_true]
      rfl
  · have heq : bytes.length=payloadSize header := by omega
    rw [if_neg hspace,if_neg (by omega),←heq]
    simp only [Nat.sub_self,hheader,not_true,if_false,List.take_left,List.drop_left]
    rfl

theorem receiveHeader_spec {bytes block : List UInt8} (hbytes : bytes.length < headerSize) :
    receiveHeader peer (holding w (.header bytes)) block=
      if (bytes++block).length < headerSize then
        ((holding w (.header (bytes++block)),[]),.wouldBlock)
      else
        let opened := w.decrypt peer ((bytes++block).take headerSize)
        if malformed opened.2 then
          ((holding opened.1 (.header opened.2),(bytes++block).drop headerSize),.invalid)
        else ((holding opened.1 (.payload opened.2 []),(bytes++block).drop headerSize),.ok 0) := by
  unfold receiveHeader WorldSocket.headerSpace holding opened
  dsimp only
  rw [if_pos (by omega)]
  simp only [List.length_append]
  by_cases hless : bytes.length+block.length < headerSize
  · have hle : ¬block.length > headerSize-bytes.length := by omega
    simp only [if_pos hless,if_neg hle,List.take_length,List.drop_length,
      List.length_nil,if_true]
    rw [if_pos (by omega)]
  · have hn : (if block.length > headerSize-bytes.length then
        headerSize-bytes.length else block.length)=headerSize-bytes.length := by
      split <;> omega
    have htake : (bytes++block).take headerSize=bytes++block.take (headerSize-bytes.length) := by
      rw [List.take_append,List.take_of_length_le hbytes.le]
    have hdrop : (bytes++block).drop headerSize=block.drop (headerSize-bytes.length) := by
      rw [List.drop_append,List.drop_of_length_le hbytes.le,List.nil_append]
    have hlength : bytes.length+(block.take (headerSize-bytes.length)).length=headerSize := by
      rw [List.length_take]
      omega
    rw [if_neg hless,hn,htake,hdrop]
    simp only [hlength,Nat.sub_self,gt_iff_lt,Nat.lt_irrefl,if_false]
    unfold handleInputHeader WorldSocket.payloadSpace
    simp only [Option.isSome_none,Bool.false_eq_true,if_false,List.length_append,hlength,ne_eq,
      not_true]
    split
    · rfl
    split
    · rfl
    rename_i hzero
    have hnone : payloadSize (w.decrypt peer
        (bytes++block.take (headerSize-bytes.length))).2=0 := by
      exact Nat.eq_zero_of_not_pos fun hpos => hzero (UInt16.lt_iff_toNat_lt.mpr hpos)
    rw [hnone]
    rfl

/-- What remains to be done once the header is there, if the loop goes on rightly. -/
theorem receivePacket_agrees {header bytes block : List UInt8} {turns : ℕ}
    (ih : ∀ (w : World σ) (stream : List UInt8),stream.length < turns →
      Agrees (receiveLoop peer turns (holding w (.header [])) stream) (cut peer w stream))
    (hheader : header.length=headerSize) (hbytes : bytes.length ≤ payloadSize header)
    (hturns : (bytes++block).length-payloadSize header < turns) :
    Agrees
      (match receivePacket peer (holding w (.payload header bytes)) block with
      | ((s,block),.ok _) => receiveLoop peer turns s block
      | ((s,_),ret) => (s,ret)) (cutPayload peer w header (bytes++block)) := by
  rw [receivePacket_spec hheader hbytes,cutPayload]
  by_cases hless : (bytes++block).length < payloadSize header
  · rw [if_pos hless,if_pos hless]
    exact ⟨rfl,Or.inl rfl,hheader,hless⟩
  rw [if_neg hless,if_neg hless]
  dsimp only
  generalize w.process peer (dropHighBytes (cmdOf header))
    ((bytes++block).take (payloadSize header))=done
  obtain ⟨after,refused⟩ := done
  cases refused with
  | true => exact ⟨rfl,rfl⟩
  | false =>
    refine ih after _ ?_
    rw [List.length_drop]
    exact hturns

theorem receiveLoop_agrees (turns : ℕ) (w : World σ) (held : Held) (block : List UInt8)
    (hheld : held.Proper) (hopen : held≠.refused) (hturns : block.length < turns) :
    Agrees (receiveLoop peer turns (holding w held) block) (cutHeld peer w held block) := by
  induction turns generalizing w held block with
  | zero => exact absurd hturns (Nat.not_lt_zero _)
  | succ turns ih =>
    have hnext : ∀ (w : World σ) (stream : List UInt8),stream.length < turns →
        Agrees (receiveLoop peer turns (holding w (.header [])) stream) (cut peer w stream) :=
      fun w stream hstream =>
        ih w (.header []) stream (Nat.zero_lt_succ 5) (fun h => (by cases h)) hstream
    unfold receiveLoop receiveTurn
    cases held with
    | refused => exact absurd rfl hopen
    | header bytes =>
      have hbytes : bytes.length < headerSize := hheld
      split
      · rename_i hempty
        rw [List.length_eq_zero_iff.mp hempty,cutHeld,List.append_nil,cut_short hbytes]
        exact ⟨rfl,Or.inr ⟨0,rfl⟩,hbytes⟩
      · rename_i hblock
        rw [receiveHeader_spec hbytes,cutHeld]
        by_cases hless : (bytes++block).length < headerSize
        · rw [if_pos hless,cut_short hless]
          exact ⟨rfl,Or.inl rfl,hless⟩
        have hlong := Nat.not_lt.mp hless
        rw [if_neg hless,cut_header hlong]
        dsimp only
        by_cases hbad : malformed (w.decrypt peer ((bytes++block).take headerSize)).2
        · rw [if_pos hbad,if_pos hbad]
          exact ⟨rfl,rfl⟩
        rw [if_neg hbad,if_neg hbad]
        have hdecrypted : (w.decrypt peer ((bytes++block).take headerSize)).2.length=
            headerSize :=
          (peer.length_decryptRecv _ _).trans (List.length_take_of_le hlong)
        refine receivePacket_agrees hnext hdecrypted
          (show ([] : List UInt8).length ≤ payloadSize _ from Nat.zero_le _) ?_
        rw [List.nil_append,List.length_drop,List.length_append]
        omega
    | payload header bytes =>
      obtain ⟨hheader,hbytes⟩ := hheld
      split
      · rename_i hempty
        rw [List.length_eq_zero_iff.mp hempty,cutHeld,List.append_nil,cutPayload,if_pos hbytes]
        exact ⟨rfl,Or.inr ⟨0,rfl⟩,hheader,hbytes⟩
      · rename_i hblock
        have hfull : receiveHeader peer (holding w (.payload header bytes)) block=
            ((holding w (.payload header bytes),block),.ok 0) := by
          have hspace : (holding w (.payload header bytes)).headerSpace=0 :=
            Nat.sub_eq_zero_of_le hheader.ge
          exact if_neg (hspace ▸ Nat.lt_irrefl 0)
        rw [hfull]
        refine receivePacket_agrees hnext hheader hbytes.le ?_
        rw [List.length_append]
        omega

theorem handleInputMissingData_agrees (w : World σ) (held : Held) (received : List UInt8)
    (hheld : held.Proper) (hopen : held≠.refused) :
    Agrees (handleInputMissingData peer (holding w held) received) (cutHeld peer w held received) := by
  have hloop : Agrees (receiveLoop peer (received.length+1) (holding w held) received)
      (cutHeld peer w held received) :=
    receiveLoop_agrees (received.length+1) w held received hheld hopen (Nat.lt_succ_self _)
  unfold handleInputMissingData
  generalize receiveLoop peer (received.length+1) (holding w held) received=out at hloop
  obtain ⟨s,ret⟩ := out
  cases ret with
  | ok n =>
    unfold Agrees at hloop ⊢
    split at hloop
    · exact absurd hloop.1 (fun h => (by cases h))
    · exact ⟨hloop.1,Or.inr ⟨_,rfl⟩,hloop.2.2⟩
  | wouldBlock => exact hloop
  | invalid => exact hloop
  | failed => exact hloop

theorem cutHeld_refused (w : World σ) {held : Held} {stream : List UInt8}
    (h : (cutHeld peer w held stream).2=.refused) (more : List UInt8) :
    cutHeld peer w held (stream++more)=cutHeld peer w held stream := by
  rw [←cutHeld_append,h]
  exact Prod.ext rfl h.symm

/-- The chunks are cut into the frames of the whole stream, after what was held. -/
theorem handleInput_agrees (w : World σ) (held : Held) (chunks : List Chunk)
    (hheld : held.Proper) (hopen : held≠.refused) :
    Agrees (handleInput peer (holding w held) chunks)
      (cutHeld peer w held (chunks.map Subtype.val).flatten) := by
  induction chunks generalizing w held with
  | nil =>
    have hnil : cutHeld peer w held []=(w,held) := by
      cases held with
      | header bytes => rw [cutHeld,List.append_nil,cut_short hheld]
      | payload header bytes => rw [cutHeld,List.append_nil,cutPayload,if_pos hheld.2]
      | refused => rfl
    rw [List.map_nil,List.flatten_nil,hnil]
    cases held with
    | refused => exact absurd rfl hopen
    | header bytes => exact ⟨rfl,Or.inr ⟨0,rfl⟩,hheld⟩
    | payload header bytes => exact ⟨rfl,Or.inr ⟨0,rfl⟩,hheld⟩
  | cons chunk chunks ih =>
    have hchunk : Agrees (handleInputMissingData peer (holding w held) chunk.1)
        (cutHeld peer w held chunk.1) :=
      handleInputMissingData_agrees w held chunk.1 hheld hopen
    rw [List.map_cons,List.flatten_cons]
    unfold handleInput
    generalize handleInputMissingData peer (holding w held) chunk.1=out at hchunk
    obtain ⟨s,ret⟩ := out
    by_cases hrefused : (cutHeld peer w held chunk.1).2=.refused
    · rw [cutHeld_refused w hrefused]
      unfold Agrees at hchunk ⊢
      rw [hrefused] at hchunk ⊢
      obtain ⟨rfl,hworld⟩ : ret=.invalid ∧ s.world=_ := hchunk
      exact ⟨rfl,hworld⟩
    · rw [←cutHeld_append]
      generalize cutHeld peer w held chunk.1=reached at hchunk hrefused ⊢
      obtain ⟨after,next⟩ := reached
      cases next with
      | refused => exact absurd rfl hrefused
      | header bytes =>
        obtain ⟨rfl,hret,hproper⟩ := hchunk
        rcases hret with rfl | ⟨n,rfl⟩ <;> exact ih after (.header bytes) hproper hrefused
      | payload header bytes =>
        obtain ⟨rfl,hret,hproper⟩ := hchunk
        rcases hret with rfl | ⟨n,rfl⟩ <;> exact ih after (.payload header bytes) hproper hrefused

/-- However the stream is split, the socket hands on the frames that the whole stream is
cut into, decrypts each header once, refuses where the frames do, holds the rest, and no
assertion fails. -/
theorem input_framing (peer : Peer σ) (state : σ) (chunks : List Chunk) :
    Agrees (handleInput peer (opened state) chunks)
      (cut peer (opened state).world (chunks.map Subtype.val).flatten) :=
  handleInput_agrees _ (.header []) chunks (Nat.zero_lt_succ 5) (fun h => (by cases h))

end Framing

/-- A cipher that counts the bytes it has seen, before a handler that takes every packet. -/
def counting : Peer UInt8 where
  decryptRecv n bytes := (n+UInt8.ofNat bytes.length,bytes.map (·-n))
  length_decryptRecv _ _ := List.length_map _
  processIncoming n _ _ := (n,false)

/-- A packet whose payload comes in two chunks, and the start of another one. -/
theorem input_framing_counting :
    let reached := handleInput counting (opened 1)
      [⟨[1,7,0x4b,1,1],by decide⟩,⟨[1,8],by decide⟩,⟨[9,6],by decide⟩]
    Agrees reached (cut counting (opened 1).world [1,7,0x4b,1,1,1,8,9,6]) ∧
      reached.1.world.handed=[(0x4a,[8,9])] ∧ reached.1.m_Header=[6] := by
  exact ⟨input_framing counting 1 _,by decide,by decide⟩

end Projectnelth.WorldSocketInput
