import Mathlib
import Projectnelth.ByteBufferPatch

/-!
# Reuse of a ByteBuffer

`clear` empties the bytes and takes the positions back to the start. The bit
cursor and the pending bits stay, so a buffer that is cleared between two
bytes' worth of bits hands these bits to the next content.
-/

namespace Projectnelth.ByteBufferReuse

open BitBytes ByteBufferModel ByteBufferEmission ByteBufferPatch

/-- An operation that writes. -/
inductive Output
  /-- A write with a value. -/
  | write (op : Write)
  /-- `FlushBits`. -/
  | flush
  /-- `append(const uint8*, size_t)`. -/
  | append (src : List UInt8)
  /-- `put(size_t, const uint8*, size_t)`. -/
  | put (pos : ℕ) (src : List UInt8)
  | putBits (pos : ℕ) (value : UInt32) (bitCount : ℕ)
  /-- `wpos(size_t)`. -/
  | wpos (pos : ℕ)
  /-- `bitwpos(size_t)`. -/
  | bitwpos (pos : ℕ)
  | resize (size : ℕ)

/-- The call of an operation that writes. -/
def Output.call (buf : ByteBuffer) : Output → Option ByteBuffer
  | write op => op.write buf
  | flush => buf.FlushBits
  | append src => buf.appendRaw src
  | put pos src =>
    if pos+src.length > buf.size then none
    else some { buf with
      storage := buf.storage.take pos++src++buf.storage.drop (pos+src.length) }
  | putBits pos value bitCount =>
    match buf.PutBits pos value bitCount with
    | (none,buf) => some buf
    | (some _,_) => none
  | wpos pos => some { buf with wpos := pos }
  | bitwpos pos => some { buf with wpos := pos/8,bitpos := 8-pos%8 }
  | resize size =>
    some { buf with
      storage := buf.storage.take size++List.replicate (size-buf.size) 0
      rpos := 0
      wpos := size }

/-- A sequence of operations that write. -/
def outputAll : ByteBuffer → List Output → Option ByteBuffer
  | buf,[] => some buf
  | buf,out::outs => (out.call buf).bind fun buf => outputAll buf outs

/-- After `clear` the same operations give the same contents as on a new buffer, or fail alike. -/
def LikeNew (buf : ByteBuffer) : Prop :=
  ∀ outs,(outputAll buf.clear outs).map ByteBuffer.storage=
    (outputAll ByteBuffer.new outs).map ByteBuffer.storage

/-- With the bit cursor at the start and no pending bits a cleared buffer is a new one. -/
theorem clear_eq_new {buf : ByteBuffer} (h : buf.bitpos=8 ∧ buf.curbitval=0) :
    buf.clear=ByteBuffer.new := by
  obtain ⟨rpos,wpos,bitpos,curbitval,storage⟩ := buf
  obtain ⟨rfl,rfl⟩ := h
  rfl

/-- A flush writes the pending byte unless the bit cursor is at the start. -/
theorem storage_flush_clear {buf : ByteBuffer} (h : buf.bitpos≠8) :
    (outputAll buf.clear [Output.flush]).map ByteBuffer.storage=some [buf.curbitval] := by
  have hflush : buf.clear.FlushBits=
      some { buf.clear with storage := [buf.curbitval],wpos := 1,curbitval := 0,bitpos := 8 } := by
    unfold ByteBuffer.FlushBits
    rw [if_neg (show buf.clear.bitpos≠8 from h),appendRaw_writing (List.cons_ne_nil _ _) _ rfl,
      if_pos (show buf.clear.storage.length < ByteBuffer.maxSize from Nat.zero_lt_succ _)]
    rfl
  rw [outputAll,Output.call,hflush]
  rfl

/-- With the bit cursor at the start a zero bit and a flush write the pending bits. -/
theorem storage_bit_clear {buf : ByteBuffer} (h : buf.bitpos=8) :
    (outputAll buf.clear [Output.write (Write.bit false),Output.flush]).map ByteBuffer.storage=
      some [buf.curbitval] := by
  have hbit : buf.clear.WriteBit false=some { buf.clear with bitpos := 7 } := by
    unfold ByteBuffer.WriteBit
    rw [show buf.clear.bitpos=8 from h]
    rfl
  have hflush := @storage_flush_clear { buf with bitpos := 7 } (show 7≠8 by decide)
  rw [outputAll,Output.call,Write.write,hbit,Option.bind_some]
  exact hflush

theorem likeNew_iff (buf : ByteBuffer) :
    LikeNew buf ↔ buf.bitpos=8 ∧ buf.curbitval=0 := by
  refine ⟨fun hlike => ?_,fun hfresh outs => by rw [clear_eq_new hfresh]⟩
  have hpos : buf.bitpos=8 := by
    by_contra hne
    have hflush := hlike [Output.flush]
    rw [storage_flush_clear hne] at hflush
    cases hflush
  refine ⟨hpos,?_⟩
  have hbit := hlike [Output.write (Write.bit false),Output.flush]
  rw [storage_bit_clear hpos,
    show (outputAll ByteBuffer.new [Output.write (Write.bit false),Output.flush]).map
      ByteBuffer.storage=some [0] from rfl] at hbit
  exact (List.cons.inj (Option.some.inj hbit)).1

/-! ## Histories of writes -/

/-- The number of pending bits after some pieces. -/
def pendingBits : ℕ → List Piece → ℕ
  | pending,[] => pending
  | pending,Piece.bit::ps => pendingBits (if pending+1=8 then 0 else pending+1) ps
  | _,Piece.flushed _::ps => pendingBits 0 ps
  | pending,Piece.raw _::ps => pendingBits pending ps

theorem writeChunks_pending {storage : List UInt8} {pending : List Bool} (hp : pending.length < 8)
    {cs : List Chunk} (hc : ∀ c∈cs,c.Filled) {buf : ByteBuffer}
    (h : writeChunks (writing storage pending) cs=some buf) :
    ∃ storage' pending',pending'.length < 8 ∧ buf=writing storage' pending' ∧
      pending'.length=pendingBits pending.length (cs.map Chunk.piece) := by
  induction cs generalizing storage pending with
  | nil => exact ⟨storage,pending,hp,(Option.some.inj h).symm,rfl⟩
  | cons c cs ih =>
    rw [writeChunks,writeChunk_writing _ hp (hc c List.mem_cons_self)] at h
    split at h
    · obtain ⟨storage',pending',hp',rfl,hlen⟩ := ih (output_pending hp c)
        (fun d hd => hc d (List.mem_cons_of_mem c hd)) h
      refine ⟨storage',pending',hp',rfl,hlen.trans ?_⟩
      rw [List.map_cons]
      cases c with
      | bit b =>
        rw [Chunk.piece,pendingBits,output]
        split
        · rfl
        · rw [List.length_append,List.length_singleton]
      | flushed bytes => rfl
      | raw bytes => rfl
    · cases h

/-- A writer may be reused after `clear` exactly when its history ends with a whole byte. -/
theorem likeNew_of_writes {history : List Write} {buf : ByteBuffer}
    (h : writeAll ByteBuffer.new history=some buf) :
    LikeNew buf ↔ pendingBits 0 ((history.map Write.field).flatMap pieces)=0 := by
  rw [writeAll_eq,new_eq] at h
  obtain ⟨storage,pending,hp,rfl,hlen⟩ :=
    writeChunks_pending (by decide) (filled_flatMap history) h
  rw [pieces_flatMap,List.length_nil] at hlen
  rw [likeNew_iff,← hlen]
  show 8-pending.length=8 ∧ packed pending=0 ↔ _
  constructor
  · intro hfresh
    omega
  · intro hnil
    rw [List.length_eq_zero_iff.mp hnil]
    exact ⟨rfl,rfl⟩

/-- Whatever was done with a buffer before, after `clear` it behaves like a new one exactly when
the bit cursor was at the start and no bits were pending. For a history of writes this means that
it ends with a whole byte. -/
theorem cleared_like_new_iff (buf : ByteBuffer) :
    (LikeNew buf ↔ buf.bitpos=8 ∧ buf.curbitval=0) ∧
      ∀ history : List Write,writeAll ByteBuffer.new history=some buf →
        (LikeNew buf ↔ pendingBits 0 ((history.map Write.field).flatMap pieces)=0) :=
  ⟨likeNew_iff buf,fun _ h => likeNew_of_writes h⟩

/-- After eight bits a buffer may be cleared, after one it may not. -/
theorem cleared_like_new_sample :
    LikeNew ⟨0,1,8,0,[129]⟩ ∧ ¬LikeNew ⟨0,0,7,128,[]⟩ :=
  ⟨(cleared_like_new_iff _).1.mpr ⟨rfl,rfl⟩,fun h => by
    have hpending := ((cleared_like_new_iff _).2 [Write.bit true] rfl).mp h
    cases hpending⟩

/-- A bit that was pending before `clear` comes before the first byte after it. -/
theorem cleared_bit_leaks :
    (writeAll ByteBuffer.new [Write.bit true]).bind (fun buf =>
        (outputAll buf.clear [Output.write (Write.byteSeq 4)]).map ByteBuffer.storage)=
      some [128,5] ∧
    (outputAll ByteBuffer.new [Output.write (Write.byteSeq 4)]).map ByteBuffer.storage=
      some [5] := by
  decide

end Projectnelth.ByteBufferReuse
