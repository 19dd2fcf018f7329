import Mathlib
import Projectnelth.ByteBufferModel

/-!
# What a sequence of writes leaves in a ByteBuffer

Every write is a sequence of three kinds of chunk: a bit, bytes that first
flush the pending bits, and bytes appended as they are. The bytes of the whole
sequence are a function of its chunks, and whether `append` gets past its
`ASSERT` depends on their lengths only.
-/

namespace Projectnelth.ByteBufferEmission

open BitBytes ByteBufferModel

/-- A piece of a write. -/
inductive Chunk
  /-- One `WriteBit`. -/
  | bit (b : Bool)
  /-- The template `append`, which flushes first. -/
  | flushed (bytes : List UInt8)
  /-- The raw `append`. -/
  | raw (bytes : List UInt8)

/-- A piece without its value. -/
inductive Piece
  | bit
  | flushed (length : ℕ)
  | raw (length : ℕ)
  deriving DecidableEq

/-- The kind of a chunk. -/
def Chunk.piece : Chunk → Piece
  | bit _ => Piece.bit
  | flushed bytes => Piece.flushed bytes.length
  | raw bytes => Piece.raw bytes.length

/-- Bytes are appended only where there are some. -/
def Chunk.Filled : Chunk → Prop
  | bit _ => True
  | flushed bytes => bytes≠[]
  | raw bytes => bytes≠[]

/-- The chunks of a write. -/
def chunks : Write → List Chunk
  | Write.bit b => [Chunk.bit b]
  | Write.bits n value _ _ => (bitsOf value.toNat n).map Chunk.bit
  | Write.int width value _ => [Chunk.flushed (leBytes width.bytes value)]
  | Write.string value _ => (if value=[] then [] else [Chunk.raw value])++ [Chunk.flushed [0]]
  | Write.byteSeq b => if b≠0 then [Chunk.flushed [b ^^^ 1]] else []

/-- The pieces of a kind of write. -/
def pieces : Field → List Piece
  | Field.bit => [Piece.bit]
  | Field.bits n _ => List.replicate n Piece.bit
  | Field.int width => [Piece.flushed width.bytes]
  | Field.string length => (if length=0 then [] else [Piece.raw length])++ [Piece.flushed 1]
  | Field.byteSeq present => if present then [Piece.flushed 1] else []

theorem piece_chunks (op : Write) : (chunks op).map Chunk.piece=pieces op.field := by
  cases op with
  | bit b => rfl
  | bits n value hn h =>
    simp only [chunks,pieces,Write.field,List.map_map]
    exact List.eq_replicate_iff.mpr ⟨by simp,by simp [Chunk.piece]⟩
  | int width value h => simp only [chunks,pieces,Write.field,List.map,Chunk.piece,length_leBytes]
  | string value h =>
    cases value with
    | nil => rfl
    | cons c cs => rfl
  | byteSeq b =>
    simp only [chunks,pieces,Write.field]
    split <;> simp_all [Chunk.piece]

theorem filled_chunks {op : Write} {c : Chunk} (hc : c∈chunks op) : c.Filled := by
  cases op with
  | bit b => rw [List.mem_singleton.mp hc]; trivial
  | bits n value hn h =>
    obtain ⟨b,-,rfl⟩ := List.mem_map.mp hc
    trivial
  | int width value h =>
    rw [List.mem_singleton.mp hc]
    cases width <;> exact List.cons_ne_nil _ _
  | string value h =>
    rcases List.mem_append.mp hc with hc|hc
    · by_cases hv : value=[]
      · rw [if_pos hv] at hc; cases hc
      · rw [if_neg hv] at hc
        rw [List.mem_singleton.mp hc]; exact hv
    · rw [List.mem_singleton.mp hc]; exact List.cons_ne_nil _ _
  | byteSeq b =>
    by_cases hb : b≠0
    · rw [chunks,if_pos hb] at hc
      rw [List.mem_singleton.mp hc]; exact List.cons_ne_nil _ _
    · rw [chunks,if_neg hb] at hc; cases hc

theorem pieces_flatMap (ops : List Write) :
    (ops.flatMap chunks).map Chunk.piece=(ops.map Write.field).flatMap pieces := by
  rw [List.map_flatMap,List.flatMap_map]
  exact List.flatMap_congr fun op _ => piece_chunks op

theorem filled_flatMap (ops : List Write) : ∀ c∈ops.flatMap chunks,c.Filled := fun c hc => by
  obtain ⟨op,-,hop⟩ := List.mem_flatMap.mp hc
  exact filled_chunks hop

/-- The byte of the pending bits. -/
def packed (pending : List Bool) : UInt8 := UInt8.ofNat (packBits pending)

/-- Bit `i` of a packed byte. -/
theorem testBit_packed {pending : List Bool} {i : ℕ} (hi : i < 8) :
    (packed pending).toNat.testBit (7-i)=pending.getD i false := by
  rw [packed,UInt8.toNat_ofNat',Nat.mod_eq_of_lt (packBits_lt pending),testBit_packBits hi]

/-- The bytes that `FlushBits` adds. -/
def tail (pending : List Bool) : List UInt8 := if pending=[] then [] else [packed pending]

/-- The bytes that chunks and the final `FlushBits` add, from the pending bits on. -/
def emit : List Bool → List Chunk → List UInt8
  | pending,[] => tail pending
  | pending,Chunk.bit b::cs =>
    if pending.length+1=8 then packed (pending++[b])::emit [] cs else emit (pending++[b]) cs
  | pending,Chunk.flushed bytes::cs => tail pending++ bytes++ emit [] cs
  | pending,Chunk.raw bytes::cs => bytes++ emit pending cs

/-- Every `append` of the pieces and of the final `FlushBits` begins below the
size limit, from a size and a number of pending bits on. -/
def Room : ℕ → ℕ → List Piece → Prop
  | size,pending,[] => pending≠0 → size < ByteBuffer.maxSize
  | size,pending,Piece.bit::ps =>
    if pending+1=8 then size < ByteBuffer.maxSize ∧ Room (size+1) 0 ps else Room size (pending+1) ps
  | size,pending,Piece.flushed length::ps =>
    (pending≠0 → size < ByteBuffer.maxSize) ∧
      size+(if pending=0 then 0 else 1) < ByteBuffer.maxSize ∧
        Room (size+(if pending=0 then 0 else 1)+length) 0 ps
  | size,pending,Piece.raw length::ps =>
    size < ByteBuffer.maxSize ∧ Room (size+length) pending ps

instance Room.decidable : ∀ size pending ps,Decidable (Room size pending ps)
  | size,pending,[] => inferInstanceAs (Decidable (pending≠0 → size < ByteBuffer.maxSize))
  | size,pending,Piece.bit::ps =>
    have := Room.decidable (size+1) 0 ps
    have := Room.decidable size (pending+1) ps
    inferInstanceAs (Decidable (if pending+1=8 then
      size < ByteBuffer.maxSize ∧ Room (size+1) 0 ps else Room size (pending+1) ps))
  | size,pending,Piece.flushed length::ps =>
    have := Room.decidable (size+(if pending=0 then 0 else 1)+length) 0 ps
    inferInstanceAs (Decidable ((pending≠0 → size < ByteBuffer.maxSize) ∧ _ ∧ _))
  | size,pending,Piece.raw length::ps =>
    have := Room.decidable (size+length) pending ps
    inferInstanceAs (Decidable (_ ∧ _))

/-- The writer with given bytes and pending bits. -/
def writing (storage : List UInt8) (pending : List Bool) : ByteBuffer :=
  ⟨0,storage.length,8-pending.length,packed pending,storage⟩

@[simp] theorem storage_writing (storage : List UInt8) (pending : List Bool) :
    (writing storage pending).storage=storage := rfl

theorem new_eq : ByteBuffer.new=writing [] [] := rfl

/-- A raw `append` at the end. -/
theorem appendRaw_writing {src : List UInt8} (hs : src≠[]) (buf : ByteBuffer)
    (hw : buf.wpos=buf.storage.length) :
    buf.appendRaw src=
      if buf.storage.length < ByteBuffer.maxSize then
        some { buf with storage := buf.storage++src,wpos := buf.storage.length+src.length }
      else none := by
  simp only [ByteBuffer.appendRaw,hs,if_false,ByteBuffer.size,hw]
  congr 3
  rw [Nat.add_sub_cancel_left,List.take_left,List.drop_eq_nil_of_le (by simp),List.append_nil]

theorem appendRaw_open (storage : List UInt8) (pending : List Bool) {src : List UInt8}
    (hs : src≠[]) :
    (writing storage pending).appendRaw src=
      if storage.length < ByteBuffer.maxSize then some (writing (storage++src) pending)
      else none := by
  rw [appendRaw_writing hs _ rfl]
  unfold writing
  rw [List.length_append]

theorem FlushBits_writing (storage : List UInt8) {pending : List Bool} (hp : pending.length < 8) :
    (writing storage pending).FlushBits=
      if pending≠[] → storage.length < ByteBuffer.maxSize then
        some (writing (storage++tail pending) [])
      else none := by
  cases pending with
  | nil =>
    simp only [ByteBuffer.FlushBits,writing,List.length_nil,if_true,tail,List.append_nil]
    simp
  | cons b bs =>
    have hne : 8-(b::bs).length≠8 := by rw [List.length_cons]; omega
    simp only [ByteBuffer.FlushBits,writing,hne,if_false]
    rw [appendRaw_writing (List.cons_ne_nil _ _) _ rfl]
    by_cases h : storage.length < ByteBuffer.maxSize
    · simp [h,tail,packed,packBits]
    · simp [h]

theorem append_writing (storage : List UInt8) {pending : List Bool} (hp : pending.length < 8)
    {bytes : List UInt8} (hb : bytes≠[]) :
    (writing storage pending).append bytes=
      if (pending≠[] → storage.length < ByteBuffer.maxSize) ∧
          (storage++tail pending).length < ByteBuffer.maxSize then
        some (writing (storage++tail pending++bytes) [])
      else none := by
  rw [ByteBuffer.append,FlushBits_writing storage hp]
  by_cases h : pending≠[] → storage.length < ByteBuffer.maxSize
  · rw [if_pos h,Option.bind_eq_bind,Option.bind_some,
      appendRaw_writing hb (writing (storage++tail pending) []) rfl]
    simp only [writing,and_iff_right h,List.length_append]
  · rw [if_neg h,if_neg fun hh => h hh.1]; rfl

theorem WriteBit_writing (storage : List UInt8) {pending : List Bool} (hp : pending.length < 8)
    (b : Bool) :
    (writing storage pending).WriteBit b=
      if pending.length+1=8 then
        if storage.length < ByteBuffer.maxSize then
          some (writing (storage++[packed (pending++[b])]) [])
        else none
      else some (writing storage (pending++[b])) := by
  have hcur : (if b then UInt8.ofNat ((packed pending).toNat ||| 1 <<< (8-pending.length-1))
      else packed pending)=packed (pending++[b]) := by
    rw [packed,packed,packBits_concat b (by omega),UInt8.toNat_ofNat',
      Nat.mod_eq_of_lt (packBits_lt pending),show 8-pending.length-1=7-pending.length by omega]
    cases b with
    | false => simp only [Bool.false_eq_true,if_false,Nat.or_zero]
    | true => simp only [if_true]
  simp only [ByteBuffer.WriteBit,writing,hcur]
  by_cases h : pending.length+1=8
  · rw [if_pos (by omega : 8-pending.length-1=0),if_pos h,
      appendRaw_writing (List.cons_ne_nil _ _) _ rfl]
    by_cases hr : storage.length < ByteBuffer.maxSize
    · simp [hr,packed,packBits]
    · simp [hr]
  · rw [if_neg (by omega : ¬ 8-pending.length-1=0),if_neg h]
    simp only [List.length_append,List.length_singleton,Option.some.injEq,ByteBuffer.mk.injEq,
      true_and,and_true]
    omega

/-- The call that writes a chunk. -/
def writeChunk (buf : ByteBuffer) : Chunk → Option ByteBuffer
  | Chunk.bit b => buf.WriteBit b
  | Chunk.flushed bytes => buf.append bytes
  | Chunk.raw bytes => buf.appendRaw bytes

/-- The calls that write chunks. -/
def writeChunks : ByteBuffer → List Chunk → Option ByteBuffer
  | buf,[] => some buf
  | buf,c::cs => (writeChunk buf c).bind fun buf => writeChunks buf cs

theorem writeChunks_append (buf : ByteBuffer) (cs ds : List Chunk) :
    writeChunks buf (cs++ds)=(writeChunks buf cs).bind fun buf => writeChunks buf ds := by
  induction cs generalizing buf with
  | nil => rfl
  | cons c cs ih =>
    rw [List.cons_append,writeChunks,writeChunks,Option.bind_assoc]
    congr 1
    funext buf
    exact ih buf

theorem testBit_eq_shift (v i : ℕ) : decide ((v >>> i) &&& 1≠0)=v.testBit i := by
  rw [Nat.testBit,Nat.land_comm]
  cases h : (1 &&& v >>> i)!=0 <;> simp_all

theorem WriteBits_eq (buf : ByteBuffer) (value : UInt32) (n : ℕ) :
    buf.WriteBits value n=writeChunks buf ((bitsOf value.toNat n).map Chunk.bit) := by
  induction n generalizing buf with
  | zero => rfl
  | succ n ih =>
    simp only [ByteBuffer.WriteBits,bitsOf,List.map_cons,writeChunks,writeChunk]
    rw [testBit_eq_shift]
    simp only [ih,Option.bind_eq_bind]

theorem write_eq (buf : ByteBuffer) (op : Write) : op.write buf=writeChunks buf (chunks op) := by
  cases op with
  | bit b => exact (Option.bind_fun_some _).symm
  | bits n value hn h => exact WriteBits_eq buf value n
  | int width value h => exact (Option.bind_fun_some _).symm
  | string value h =>
    simp only [Write.write,ByteBuffer.writeString,chunks]
    cases value with
    | nil => simp [writeChunks,writeChunk]
    | cons c cs => simp [writeChunks,writeChunk]
  | byteSeq b =>
    simp only [Write.write,ByteBuffer.WriteByteSeq,chunks]
    split
    · exact (Option.bind_fun_some _).symm
    · rfl

theorem writeAll_eq (buf : ByteBuffer) (ops : List Write) :
    writeAll buf ops=writeChunks buf (ops.flatMap chunks) := by
  induction ops generalizing buf with
  | nil => rfl
  | cons op ops ih =>
    rw [writeAll,List.flatMap_cons,writeChunks_append,write_eq]
    simp only [ih,Option.bind_eq_bind]

/-- Where there is room the chunks and the final `FlushBits` add their bytes, elsewhere they fail. -/
theorem writeChunks_writing (storage : List UInt8) {pending : List Bool}
    (hp : pending.length < 8) {cs : List Chunk} (hc : ∀ c∈cs,c.Filled) :
    (writeChunks (writing storage pending) cs).bind ByteBuffer.FlushBits=
      if Room storage.length pending.length (cs.map Chunk.piece) then
        some (writing (storage++emit pending cs) [])
      else none := by
  induction cs generalizing storage pending with
  | nil =>
    rw [writeChunks,Option.bind_some,FlushBits_writing storage hp,emit]
    simp only [List.map_nil,Room,ne_eq,List.length_eq_zero_iff]
  | cons c cs ih =>
    have hcs : ∀ d∈cs,d.Filled := fun d hd => hc d (List.mem_cons_of_mem c hd)
    have hfill : c.Filled := hc c List.mem_cons_self
    rw [writeChunks]
    cases c with
    | bit b =>
      rw [writeChunk,WriteBit_writing storage hp]
      simp only [List.map_cons,Chunk.piece,Room,emit]
      by_cases h : pending.length+1=8
      · simp only [h,if_true]
        by_cases hr : storage.length < ByteBuffer.maxSize
        · rw [if_pos hr,Option.bind_some,ih _ (by decide) hcs]
          simp only [List.length_append,List.length_singleton,List.length_nil,hr,true_and,
            List.append_assoc,List.singleton_append]
        · rw [if_neg hr,if_neg fun hroom => hr hroom.1]; rfl
      · simp only [h,if_false]
        rw [Option.bind_some,ih _ (by rw [List.length_append,List.length_singleton]; omega) hcs]
        simp only [List.length_append,List.length_singleton]
    | flushed bytes =>
      rw [writeChunk,append_writing storage hp hfill]
      have htail : (storage++tail pending).length=
          storage.length+(if pending.length=0 then 0 else 1) := by
        rw [List.length_append,tail]
        cases pending <;> rfl
      simp only [List.map_cons,Chunk.piece,Room,emit,htail,ne_eq,List.length_eq_zero_iff]
      by_cases hr : (¬ pending=[] → storage.length < ByteBuffer.maxSize) ∧
          storage.length+(if pending=[] then 0 else 1) < ByteBuffer.maxSize
      · rw [if_pos hr,Option.bind_some,ih _ (by decide) hcs,List.length_append,htail]
        simp only [List.length_eq_zero_iff,List.length_nil,and_iff_right hr.2,
          show (¬ pending=[] → storage.length < ByteBuffer.maxSize)=True from eq_true hr.1,true_and,
          List.append_assoc]
      · rw [if_neg hr,if_neg fun hroom => hr ⟨hroom.1,hroom.2.1⟩]; rfl
    | raw bytes =>
      rw [writeChunk,appendRaw_open storage pending hfill]
      simp only [List.map_cons,Chunk.piece,Room,emit]
      by_cases hr : storage.length < ByteBuffer.maxSize
      · rw [if_pos hr,Option.bind_some,ih _ hp hcs]
        simp only [List.length_append,hr,true_and,List.append_assoc]
      · rw [if_neg hr,if_neg fun hroom => hr hroom.1]; rfl

/-- The bytes of a message. -/
theorem written_eq (ops : List Write) :
    written ops=
      if Room 0 0 ((ops.map Write.field).flatMap pieces) then
        some (emit [] (ops.flatMap chunks))
      else none := by
  have h := congrArg (Option.map ByteBuffer.storage)
    (@writeChunks_writing [] [] (by decide) _ (filled_flatMap ops))
  rw [pieces_flatMap,Option.map_bind,apply_ite (Option.map ByteBuffer.storage),
    Option.map_some,Option.map_none] at h
  rw [written,writeAll_eq,new_eq]
  simp only [Option.bind_eq_bind,Option.pure_def]
  simpa only [Function.comp_def,Option.map_eq_bind,List.length_nil,List.nil_append,
    storage_writing] using h

end Projectnelth.ByteBufferEmission
