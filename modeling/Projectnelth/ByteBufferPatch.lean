import Mathlib
import Projectnelth.ByteBufferEmission

/-!
# Placeholders in a ByteBuffer

The bits of a writer are those of its bytes and the pending ones. `bitwpos` is
their number, a bit write adds to them and `FlushBits` pads them, so that
`PutBits` at a recorded `bitwpos` finds the bits that were written there.
-/

namespace Projectnelth.ByteBufferPatch

open BitBytes ByteBufferModel ByteBufferEmission

/-! ## The bits that are written -/

/-- The bits of a packed byte: the pending ones and zeros. -/
theorem bitsOf_packed {pending : List Bool} (h : pending.length ≤ 8) :
    bitsOf (packed pending).toNat 8=pending++List.replicate (8-pending.length) false := by
  refine List.ext_getElem? fun i => ?_
  by_cases hi : i < 8
  · rw [getElem?_bitsOf hi,show 8-1-i=7-i by omega,testBit_packed hi,List.getElem?_append]
    split
    · rename_i hlt
      rw [List.getD_eq_getElem?_getD,List.getElem?_eq_getElem hlt]
      rfl
    · rename_i hge
      rw [List.getD_eq_default _ _ (Nat.not_lt.mp hge),List.getElem?_replicate,if_pos (by omega)]
  · rw [List.getElem?_eq_none (by rw [length_bitsOf]; omega),
      List.getElem?_eq_none (by rw [List.length_append,List.length_replicate]; omega)]

/-- How many zeros `FlushBits` adds to a number of bits. -/
def padding (count : ℕ) : ℕ := (8-count%8)%8

theorem bitsOfBytes_tail {pending : List Bool} (h : pending.length < 8) :
    bitsOfBytes (tail pending)=pending++List.replicate (padding pending.length) false := by
  unfold tail
  split
  · rename_i hnil
    rw [hnil]
    rfl
  · rename_i hne
    have hpos : 0 < pending.length := List.length_pos_of_ne_nil hne
    rw [bitsOfBytes_cons,bitsOf_packed (by omega),padding,
      show (8-pending.length%8)%8=8-pending.length by omega]
    exact List.append_nil _

/-- The bytes of bit writes and of the final `FlushBits` are their bits and zeros. -/
theorem bitsOfBytes_emit {pending : List Bool} (h : pending.length < 8) (bits : List Bool) :
    bitsOfBytes (emit pending (bits.map Chunk.bit))=
      pending++bits++List.replicate (padding (pending.length+bits.length)) false := by
  induction bits generalizing pending with
  | nil => rw [List.map_nil,emit,bitsOfBytes_tail h,List.append_nil]; rfl
  | cons b bits ih =>
    rw [List.map_cons,emit]
    split
    · rename_i hfull
      have hpad : padding (([] : List Bool).length+bits.length)=
          padding (pending.length+(b::bits).length) := by
        rw [padding,padding,List.length_nil,List.length_cons]
        omega
      rw [bitsOfBytes_cons,bitsOf_packed (by rw [List.length_append]; exact hfull.le),
        ih (by decide),hpad,List.length_append,List.length_singleton,hfull]
      simp
    · rename_i hopen
      rw [ih (by rw [List.length_append,List.length_singleton]; omega),List.length_append,
        List.length_singleton,List.length_cons,Nat.add_assoc,Nat.add_comm 1]
      simp

/-! ## What a write adds -/

/-- The bytes that a chunk adds at once and the bits that are pending after it. -/
def output (pending : List Bool) : Chunk → List UInt8×List Bool
  | Chunk.bit b =>
    if pending.length+1=8 then ([packed (pending++[b])],[]) else ([],pending++[b])
  | Chunk.flushed bytes => (tail pending++bytes,[])
  | Chunk.raw bytes => (bytes,pending)

/-- Every `append` of a chunk begins below the size limit. -/
def PieceRoom (size pending : ℕ) : Piece → Prop
  | Piece.bit => pending+1=8 → size < ByteBuffer.maxSize
  | Piece.flushed _ =>
    (pending≠0 → size < ByteBuffer.maxSize) ∧ size+(if pending=0 then 0 else 1) < ByteBuffer.maxSize
  | Piece.raw _ => size < ByteBuffer.maxSize

instance (size pending : ℕ) (p : Piece) : Decidable (PieceRoom size pending p) := by
  unfold PieceRoom
  split <;> infer_instance

theorem output_pending {pending : List Bool} (h : pending.length < 8) (c : Chunk) :
    (output pending c).2.length < 8 := by
  cases c with
  | bit b =>
    by_cases hfull : pending.length+1=8
    · rw [output,if_pos hfull]
      exact Nat.zero_lt_succ 7
    · rw [output,if_neg hfull,List.length_append,List.length_singleton]
      omega
  | flushed bytes => exact Nat.zero_lt_succ 7
  | raw bytes => exact h

theorem length_tail (pending : List Bool) :
    (tail pending).length=if pending.length=0 then 0 else 1 := by
  cases pending <;> rfl

theorem writeChunk_writing (storage : List UInt8) {pending : List Bool} (hp : pending.length < 8)
    {c : Chunk} (hc : c.Filled) :
    writeChunk (writing storage pending) c=
      if PieceRoom storage.length pending.length c.piece then
        some (writing (storage++(output pending c).1) (output pending c).2)
      else none := by
  cases c with
  | bit b =>
    rw [writeChunk,WriteBit_writing storage hp]
    simp only [Chunk.piece,PieceRoom,output]
    by_cases hfull : pending.length+1=8
    · simp only [hfull,if_true,forall_const]
    · simp only [hfull,if_false,false_implies,if_true,List.append_nil]
  | flushed bytes =>
    rw [writeChunk,append_writing storage hp hc]
    simp only [Chunk.piece,PieceRoom,output,List.length_append,length_tail,ne_eq,
      List.length_eq_zero_iff,List.append_assoc]
  | raw bytes => exact appendRaw_open storage pending hc

/-! ## `PutBits` -/

/-- What the loop of `PutBits` makes of a buffer. -/
def patch (pos : ℕ) (value : UInt32) (n : ℕ) (buf : ByteBuffer) : ByteBuffer :=
  { buf with storage := ByteBuffer.putLoop value n buf.storage pos }

@[simp] theorem length_putLoop (value : UInt32) (n : ℕ) (storage : List UInt8) (pos : ℕ) :
    (ByteBuffer.putLoop value n storage pos).length=storage.length := by
  induction n generalizing storage pos with
  | zero => rfl
  | succ n ih => rw [ByteBuffer.putLoop,ih,ByteBuffer.putBit,List.length_modify]

/-- The bits at the position become those of the value. -/
theorem bitsOfBytes_putLoop (value : UInt32) {n : ℕ} {storage : List UInt8}
    {before field after : List Bool} (hfield : field.length=n)
    (h : bitsOfBytes storage=before++field++after) :
    bitsOfBytes (ByteBuffer.putLoop value n storage before.length)=
      before++bitsOf value.toNat n++after := by
  induction n generalizing storage before field with
  | zero =>
    rw [List.length_eq_zero_iff.mp hfield] at h
    exact h
  | succ n ih =>
    obtain ⟨b,field,rfl⟩ := List.exists_cons_of_length_eq_add_one hfield
    rw [ByteBuffer.putLoop,ByteBuffer.putBit,testBit_eq_shift]
    have hbit : bitsOfBytes (storage.modify (before.length/8) fun byte =>
        setBit byte (before.length%8) (value.toNat.testBit n))=
          (before++[value.toNat.testBit n])++field++after := by
      rw [bitsOfBytes_modify,h]
      simp
    have hrest := ih (Nat.succ.inj hfield) hbit
    rw [List.length_append,List.length_singleton] at hrest
    rw [hrest,bitsOf]
    simp

theorem putLoop_append (value : UInt32) {n : ℕ} {storage : List UInt8} (rest : List UInt8)
    {pos : ℕ} (h : pos+n ≤ 8*storage.length) :
    ByteBuffer.putLoop value n (storage++rest) pos=
      ByteBuffer.putLoop value n storage pos++rest := by
  induction n generalizing storage pos with
  | zero => rfl
  | succ n ih =>
    have hbit : ∀ bit,ByteBuffer.putBit (storage++rest) pos bit=
        ByteBuffer.putBit storage pos bit++rest := fun bit => by
      refine bitsOfBytes_injective ?_
      rw [ByteBuffer.putBit,ByteBuffer.putBit,bitsOfBytes_append,bitsOfBytes_modify,
        bitsOfBytes_modify,bitsOfBytes_append,List.set_append,
        if_pos (by rw [length_bitsOfBytes]; omega)]
    rw [ByteBuffer.putLoop,ByteBuffer.putLoop,hbit]
    exact ih (by rw [ByteBuffer.putBit,List.length_modify]; omega)

theorem patch_writing (pos : ℕ) (value : UInt32) (n : ℕ) (storage : List UInt8)
    (pending : List Bool) :
    patch pos value n (writing storage pending)=
      writing (ByteBuffer.putLoop value n storage pos) pending := by
  unfold patch writing
  rw [length_putLoop]

/-- Where the position lies in the bytes, patching may as well come before further writes. -/
theorem writeChunks_patch {pos n : ℕ} (value : UInt32) {storage : List UInt8}
    {pending : List Bool} (hp : pending.length < 8) (hpos : pos+n ≤ 8*storage.length)
    {cs : List Chunk} (hc : ∀ c∈cs,c.Filled) :
    writeChunks (patch pos value n (writing storage pending)) cs=
      (writeChunks (writing storage pending) cs).map (patch pos value n) := by
  induction cs generalizing storage pending with
  | nil => rfl
  | cons c cs ih =>
    have hfill : c.Filled := hc c List.mem_cons_self
    rw [writeChunks,writeChunks,patch_writing,writeChunk_writing _ hp hfill,
      writeChunk_writing _ hp hfill,length_putLoop]
    split
    · rw [Option.bind_some,Option.bind_some,← putLoop_append value _ hpos,← patch_writing]
      refine ih (output_pending hp c) ?_ fun d hd => hc d (List.mem_cons_of_mem c hd)
      rw [List.length_append]
      omega
    · rfl

/-- Writes leave a writer that holds the earlier bytes. -/
theorem writeChunks_state {storage : List UInt8} {pending : List Bool} (hp : pending.length < 8)
    {cs : List Chunk} (hc : ∀ c∈cs,c.Filled) {buf : ByteBuffer}
    (h : writeChunks (writing storage pending) cs=some buf) :
    ∃ bytes pending',pending'.length < 8 ∧ buf=writing (storage++bytes) pending' := by
  induction cs generalizing storage pending with
  | nil => exact ⟨[],pending,hp,by rw [List.append_nil]; exact (Option.some.inj h).symm⟩
  | cons c cs ih =>
    rw [writeChunks,writeChunk_writing _ hp (hc c List.mem_cons_self)] at h
    split at h
    · obtain ⟨bytes,pending',hp',rfl⟩ := ih (output_pending hp c)
        (fun d hd => hc d (List.mem_cons_of_mem c hd)) h
      exact ⟨(output pending c).1++bytes,pending',hp',by rw [List.append_assoc]⟩
    · cases h

/-! ## Patching a placeholder -/

/-- A write of bits only. -/
def OfBits : Write → Prop
  | Write.bit _ => True
  | Write.bits _ _ _ _ => True
  | _ => False

theorem chunks_ofBits {ops : List Write} (h : ∀ op∈ops,OfBits op) :
    ∃ bits : List Bool,ops.flatMap chunks=bits.map Chunk.bit := by
  induction ops with
  | nil => exact ⟨[],rfl⟩
  | cons op ops ih =>
    obtain ⟨bits,hbits⟩ := ih fun op' hop => h op' (List.mem_cons_of_mem op hop)
    have hop : OfBits op := h op List.mem_cons_self
    rw [List.flatMap_cons,hbits]
    cases op with
    | bit b => exact ⟨b::bits,rfl⟩
    | bits n value hn hv => exact ⟨bitsOf value.toNat n++bits,List.map_append.symm⟩
    | int width value hv => exact hop.elim
    | string value hv => exact hop.elim
    | byteSeq b => exact hop.elim

/-- A field of bits between two sequences of writes, then further bit writes, `FlushBits` and
any writes. -/
def direct (before : List Write) (value : UInt32) (n : ℕ) (bits rest : List Write) :
    Option ByteBuffer := do
  let buf←writeAll ByteBuffer.new before
  let buf←buf.WriteBits value n
  let buf←writeAll buf bits
  let buf←buf.FlushBits
  writeAll buf rest

/-- The same with zeros in place of the value, which `PutBits` puts there at the end. -/
def patched (before : List Write) (value : UInt32) (n : ℕ) (bits rest : List Write) :
    Option (Option ByteBufferException×ByteBuffer) := do
  let buf←writeAll ByteBuffer.new before
  let pos := buf.bitwpos
  let buf←buf.WriteBits 0 n
  let buf←writeAll buf bits
  let buf←buf.FlushBits
  let buf←writeAll buf rest
  return buf.PutBits pos value n

theorem bitwpos_writing (storage : List UInt8) {pending : List Bool} (h : pending.length < 8) :
    (writing storage pending).bitwpos=(bitsOfBytes storage++pending).length := by
  rw [List.length_append,length_bitsOfBytes,ByteBuffer.bitwpos]
  show storage.length*8+8-(8-pending.length)=8*storage.length+pending.length
  omega

theorem PutBits_of_within {buf : ByteBuffer} {pos n : ℕ} (value : UInt32) (hn : n≠0)
    (hpos : pos+n ≤ 8*buf.storage.length) :
    buf.PutBits pos value n=(none,patch pos value n buf) := by
  unfold ByteBuffer.PutBits
  rw [if_neg hn,if_neg (by rw [ByteBuffer.size]; omega)]
  rfl

theorem writeAll_eq_chunks {cs : List Chunk} {ops : List Write} (h : ops.flatMap chunks=cs)
    (buf : ByteBuffer) : writeAll buf ops=writeChunks buf cs := by
  rw [writeAll_eq,h]

theorem field_flushed (storage : List UInt8) {pending : List Bool} (hp : pending.length < 8)
    (value : UInt32) (n : ℕ) (bits : List Bool) :
    ((writing storage pending).WriteBits value n).bind (fun buf =>
      (writeChunks buf (bits.map Chunk.bit)).bind ByteBuffer.FlushBits)=
      if Room storage.length pending.length (List.replicate (n+bits.length) Piece.bit) then
        some (writing (storage++emit pending ((bitsOf value.toNat n++bits).map Chunk.bit)) [])
      else none := by
  have hpieces : ((bitsOf value.toNat n++bits).map Chunk.bit).map Chunk.piece=
      List.replicate (n+bits.length) Piece.bit := by
    rw [List.map_map]
    show (bitsOf value.toNat n++bits).map (fun _ => Piece.bit)=_
    rw [List.map_const',List.length_append,length_bitsOf]
  have hfilled : ∀ c∈(bitsOf value.toNat n++bits).map Chunk.bit,c.Filled := fun c hc => by
    obtain ⟨b,-,rfl⟩ := List.mem_map.mp hc
    trivial
  rw [← hpieces,← writeChunks_writing storage hp hfilled,List.map_append,writeChunks_append,
    WriteBits_eq,Option.bind_assoc]

/-- At the recorded position `PutBits` finds the placeholder. -/
theorem putLoop_placeholder (storage : List UInt8) {pending : List Bool} (hp : pending.length < 8)
    (value : UInt32) (n : ℕ) (bits : List Bool) :
    (bitsOfBytes storage++pending).length+n ≤
        8*(storage++emit pending ((bitsOf 0 n++bits).map Chunk.bit)).length ∧
      ByteBuffer.putLoop value n (storage++emit pending ((bitsOf 0 n++bits).map Chunk.bit))
          (bitsOfBytes storage++pending).length=
        storage++emit pending ((bitsOf value.toNat n++bits).map Chunk.bit) := by
  have hbits : ∀ v : ℕ,bitsOfBytes (storage++emit pending ((bitsOf v n++bits).map Chunk.bit))=
      (bitsOfBytes storage++pending)++bitsOf v n++
        (bits++List.replicate (padding (pending.length+(n+bits.length))) false) := fun v => by
    rw [bitsOfBytes_append,bitsOfBytes_emit hp,List.length_append,length_bitsOf]
    simp only [List.append_assoc]
  constructor
  · rw [← length_bitsOfBytes,hbits]
    simp only [List.length_append,length_bitsOf]
    omega
  · refine bitsOfBytes_injective ?_
    rw [bitsOfBytes_putLoop value (length_bitsOf 0 n) (hbits 0),hbits]

/-- A patched placeholder leaves the very buffer that writing the value leaves. -/
theorem patched_eq_direct (before : List Write) (value : UInt32) {n : ℕ} (hn : n≠0)
    {bits : List Write} (hbits : ∀ op∈bits,OfBits op) (rest : List Write) :
    patched before value n bits rest=
      (direct before value n bits rest).map fun buf => (none,buf) := by
  obtain ⟨bs,hbs⟩ := chunks_ofBits hbits
  unfold patched direct
  simp only [Option.bind_eq_bind,Option.pure_def]
  cases hbefore : writeAll ByteBuffer.new before with
  | none => rfl
  | some buf =>
    rw [writeAll_eq,new_eq] at hbefore
    obtain ⟨storage,pending,hp,rfl⟩ :=
      writeChunks_state (by decide) (filled_flatMap before) hbefore
    rw [List.nil_append] at *
    have hfield := field_flushed storage hp
    simp only [Option.bind_some,writeAll_eq_chunks hbs]
    simp only [← Option.bind_assoc] at hfield ⊢
    rw [hfield,hfield]
    split
    · rw [Option.bind_some,Option.bind_some,bitwpos_writing storage hp]
      obtain ⟨hpos,hput⟩ := putLoop_placeholder storage hp value n bs
      rw [UInt32.toNat_zero,← hput,← patch_writing,writeAll_eq,writeAll_eq,
        writeChunks_patch value (by decide) hpos (filled_flatMap rest)]
      cases hrest : writeChunks (writing (storage++emit pending
          ((bitsOf 0 n++bs).map Chunk.bit)) []) (rest.flatMap chunks) with
      | none => rfl
      | some buf =>
        obtain ⟨bytes,pending',-,rfl⟩ :=
          writeChunks_state (by decide) (filled_flatMap rest) hrest
        refine congrArg some (PutBits_of_within value hn (hpos.trans (Nat.mul_le_mul_left 8 ?_)))
        exact (List.sublist_append_left ..).length_le
    · rfl

/-- What a call of `PutBits` does. -/
structure PutBitsLaw (buf : ByteBuffer) (pos : ℕ) (value : UInt32) (n : ℕ) : Prop where
  /-- It throws for no bits and for bits past the end. -/
  throws : (buf.PutBits pos value n).1.isSome=true ↔ n=0 ∨ pos+n > 8*buf.size
  /-- Then the buffer stays as it is. -/
  unchanged : (buf.PutBits pos value n).1.isSome=true → (buf.PutBits pos value n).2=buf
  /-- Otherwise the bits at the position become those of the value, and no others change. -/
  bits : (buf.PutBits pos value n).1=none →
    bitsOfBytes (buf.PutBits pos value n).2.storage=
      (bitsOfBytes buf.storage).take pos++bitsOf value.toNat n++
        (bitsOfBytes buf.storage).drop (pos+n)
  /-- The other fields stay as they are. -/
  fields : { (buf.PutBits pos value n).2 with storage := buf.storage }=buf

theorem putBitsLaw (buf : ByteBuffer) (pos : ℕ) (value : UInt32) (n : ℕ) :
    PutBitsLaw buf pos value n := by
  by_cases hwithin : n≠0 ∧ pos+n ≤ 8*buf.size
  · obtain ⟨hn,hpos⟩ := hwithin
    have hput := PutBits_of_within value hn hpos
    have hlen : (bitsOfBytes buf.storage).length=8*buf.size := length_bitsOfBytes _
    refine ⟨?_,?_,fun _ => ?_,?_⟩
    · rw [hput]
      exact ⟨(by rintro ⟨⟩),fun h => by omega⟩
    · rw [hput]
      rintro ⟨⟩
    · rw [hput]
      have hsplit : bitsOfBytes buf.storage=(bitsOfBytes buf.storage).take pos++
          ((bitsOfBytes buf.storage).drop pos).take n++(bitsOfBytes buf.storage).drop (pos+n) := by
        rw [List.append_assoc,← List.drop_drop,List.take_append_drop,List.take_append_drop]
      have hpre : ((bitsOfBytes buf.storage).take pos).length=pos := by
        rw [List.length_take]
        omega
      have hbits := @bitsOfBytes_putLoop value n _ _ _ _
        (by rw [List.length_take,List.length_drop]; omega) hsplit
      rw [hpre] at hbits
      exact hbits
    · rw [hput]
      rfl
  · have hthrows : n=0 ∨ pos+n > 8*buf.size := by omega
    have hput : ∃ e,buf.PutBits pos value n=(some e,buf) := by
      unfold ByteBuffer.PutBits
      split
      · exact ⟨_,rfl⟩
      · rw [if_pos (by omega)]
        exact ⟨_,rfl⟩
    obtain ⟨e,hput⟩ := hput
    refine ⟨?_,?_,?_,?_⟩
    · rw [hput]
      exact ⟨fun _ => hthrows,fun _ => rfl⟩
    · rw [hput]
      exact fun _ => rfl
    · rw [hput]
      rintro ⟨⟩
    · rw [hput]

/-- Patching a placeholder is writing the value, whatever was written before it, whatever bits
follow it up to the flush and whatever is written after that. Each call of `PutBits` writes the
bits of the value at its position and no others, or throws and writes nothing. -/
theorem placeholder_patched (before : List Write) (value : UInt32) (n : ℕ) (hn : 1 ≤ n ∧ n ≤ 32)
    (bits rest : List Write) (hbits : ∀ op∈bits,OfBits op) :
    patched before value n bits rest=
        (direct before value n bits rest).map (fun buf => (none,buf)) ∧
      ∀ (buf : ByteBuffer) (pos : ℕ) (value : UInt32) (count : ℕ),
        PutBitsLaw buf pos value count :=
  ⟨patched_eq_direct before value (by omega) hbits rest,putBitsLaw⟩

/-- A count of five bits between two bits, a byte and a string. -/
theorem placeholder_patched_sample :
    patched [Write.bit true] 19 5 [Write.bit true]
        [Write.byteSeq 7,Write.string [65] (by decide)]=
      (direct [Write.bit true] 19 5 [Write.bit true]
        [Write.byteSeq 7,Write.string [65] (by decide)]).map (fun buf => (none,buf)) :=
  (placeholder_patched [Write.bit true] 19 5 (by decide) [Write.bit true]
    [Write.byteSeq 7,Write.string [65] (by decide)]
    (fun op hop => by rw [List.mem_singleton.mp hop]; trivial)).1

end Projectnelth.ByteBufferPatch
