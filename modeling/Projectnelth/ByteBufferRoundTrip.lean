import Mathlib
import Projectnelth.ByteBufferEmission
import Projectnelth.RunInvariant

/-!
# Which interleavings of writes can be read back

The reader is in step with the writer as long as no bytes are appended raw
while bits are pending (they would go in front of those bits) and no bit
follows bytes that flushed an incomplete byte (the reader keeps its place in
that byte). These two are all that can go wrong: an interleaving of writes
without them reads back for all values, one with them fails for some.
-/

namespace Projectnelth.ByteBufferRoundTrip

open BitBytes ByteBufferModel ByteBufferEmission RunInvariant

/-- The number of pending bits, and whether the reader is left inside a byte
that the writer has flushed, after a piece. -/
def advance : ℕ×Bool → Piece → ℕ×Bool
  | (pending,stale),Piece.bit => ((pending+1)%8,stale)
  | (pending,stale),Piece.flushed _ => (0,stale || pending≠0)
  | (pending,stale),Piece.raw _ => (pending,stale)

/-- No bit inside a flushed byte, no raw bytes before pending bits. -/
def Allowed : ℕ×Bool → Piece → Prop
  | (_,stale),Piece.bit => stale=false
  | _,Piece.flushed _ => True
  | (pending,_),Piece.raw _ => pending=0

instance Allowed.decidable : ∀ s p,Decidable (Allowed s p)
  | (_,stale),Piece.bit => inferInstanceAs (Decidable (stale=false))
  | _,Piece.flushed _ => isTrue trivial
  | (pending,_),Piece.raw _ => inferInstanceAs (Decidable (pending=0))

/-- Nowhere in the interleaving is a nonempty string written while bits are
pending, and no bit is written after bytes that flushed an incomplete byte. -/
def Aligned (fields : List Field) : Prop :=
  Meets advance Allowed (0,false) (fields.flatMap pieces)

instance Aligned.decidable (fields : List Field) : Decidable (Aligned fields) :=
  inferInstanceAs (Decidable (Meets _ _ _ _))

/-- The byte of the pending bits is the next one written. -/
def Fills : ℕ → List Piece → Prop
  | 0,_ => True
  | _+1,[] => True
  | pending+1,Piece.bit::ps => Fills ((pending+2)%8) ps
  | _+1,Piece.flushed _::_ => True
  | _+1,Piece.raw _::_ => False

/-- In an aligned sequence pending bits are completed or flushed before raw bytes. -/
theorem Fills.of_meets {pending : ℕ} {stale : Bool} {ps : List Piece}
    (h : Meets advance Allowed (pending,stale) ps) : Fills pending ps := by
  induction ps generalizing pending stale with
  | nil => cases pending <;> trivial
  | cons p ps ih =>
    cases pending with
    | zero => trivial
    | succ pending =>
      cases p with
      | bit => exact ih h.2
      | flushed length => trivial
      | raw length => exact absurd h.1 (Nat.succ_ne_zero pending)

/-- The next byte begins with the pending bits where nothing gets in front of it. -/
theorem emit_of_fills {pending : List Bool} {cs : List Chunk} (hne : pending≠[])
    (hlen : pending.length < 8) (h : Fills pending.length (cs.map Chunk.piece)) :
    ∃ more rest,emit pending cs=packed (pending++more)::rest := by
  induction cs generalizing pending with
  | nil => exact ⟨[],[],by rw [emit,tail,if_neg hne,List.append_nil]⟩
  | cons c cs ih =>
    obtain ⟨n,hn⟩ := Nat.exists_eq_succ_of_ne_zero (List.length_eq_zero_iff.not.mpr hne)
    cases c with
    | bit b =>
      rw [emit]
      split
      · exact ⟨[b],_,rfl⟩
      rename_i hfull
      have hlen' : (pending++[b]).length < 8 := by
        rw [List.length_append,List.length_singleton]; omega
      have hfills : Fills (pending++[b]).length (cs.map Chunk.piece) := by
        rw [hn] at h
        rw [List.length_append,List.length_singleton,hn,
          ← Nat.mod_eq_of_lt (by omega : n.succ+1 < 8)]
        exact h
      obtain ⟨more,rest,he⟩ := ih (by simp) hlen' hfills
      exact ⟨b::more,rest,by rw [he,List.append_assoc]; rfl⟩
    | flushed bytes =>
      exact ⟨[],bytes++emit [] cs,by rw [emit,tail,if_neg hne,List.append_nil]; rfl⟩
    | raw bytes => rw [hn] at h; exact h.elim

/-- A bit that a reader finds set, bytes whose first bit is clear: values for which
losing step shows. -/
def Bright : Chunk → Prop
  | Chunk.bit b => b=true
  | Chunk.flushed _ => True
  | Chunk.raw bytes => ∃ c cs,bytes=c::cs ∧ c.toNat.testBit 7=false

/-- Where raw bytes get in front of the pending bits the next byte is theirs. -/
theorem emit_of_not_fills {pending : List Bool} {cs : List Chunk} (hne : pending≠[])
    (hlen : pending.length < 8) (hb : ∀ c∈cs,Bright c)
    (h : ¬ Fills pending.length (cs.map Chunk.piece)) :
    ∃ c rest,emit pending cs=c::rest ∧ c.toNat.testBit 7=false := by
  obtain ⟨n,hn⟩ := Nat.exists_eq_succ_of_ne_zero (List.length_eq_zero_iff.not.mpr hne)
  induction cs generalizing pending n with
  | nil => rw [hn] at h; exact absurd trivial h
  | cons c cs ih =>
    have hcs : ∀ d∈cs,Bright d := fun d hd => hb d (List.mem_cons_of_mem c hd)
    cases c with
    | bit b =>
      rw [hn] at h
      have hfills : ¬ Fills ((n+2)%8) (cs.map Chunk.piece) := h
      have hfull : pending.length+1≠8 := fun hfull => by
        rw [show n+2=8 by omega,Nat.mod_self] at hfills
        exact hfills (by cases cs.map Chunk.piece <;> trivial)
      have hlen' : (pending++[b]).length=n+2 := by
        rw [List.length_append,List.length_singleton,hn]
      rw [Nat.mod_eq_of_lt (by omega),← hlen'] at hfills
      rw [emit,if_neg hfull]
      exact ih (by simp) (by omega) hcs hfills _ hlen'
    | flushed bytes => rw [hn] at h; exact absurd trivial h
    | raw bytes =>
      obtain ⟨d,ds,rfl,hd⟩ := hb _ List.mem_cons_self
      exact ⟨d,ds++emit pending cs,rfl,hd⟩

/-- The bytes not yet read. -/
structure Unread (buf : ByteBuffer) (bytes : List UInt8) : Prop where
  /-- The read position is within the buffer. -/
  rpos_le : buf.rpos ≤ buf.size
  /-- What lies behind it. -/
  drop_eq : buf.storage.drop buf.rpos=bytes

theorem Unread.length {buf : ByteBuffer} {bytes : List UInt8} (h : Unread buf bytes) :
    bytes.length+buf.rpos=buf.size := by
  rw [← h.drop_eq,List.length_drop]
  exact Nat.sub_add_cancel h.rpos_le

/-- Reading as many bytes as stand in front. -/
theorem Unread.read {buf : ByteBuffer} {bytes rest : List UInt8} (h : Unread buf (bytes++rest)) :
    ∃ buf',buf.read bytes.length=some (bytes,buf') ∧ buf'.bitpos=buf.bitpos ∧
      buf'.curbitval=buf.curbitval ∧ Unread buf' rest := by
  have hlen := h.length
  rw [List.length_append] at hlen
  refine ⟨{ buf with rpos := buf.rpos+bytes.length },?_,rfl,rfl,⟨?_,?_⟩⟩
  · rw [ByteBuffer.read,if_neg (by omega),h.drop_eq,List.take_left]
  · show buf.rpos+bytes.length ≤ buf.size
    omega
  · show buf.storage.drop (buf.rpos+bytes.length)=rest
    rw [← List.drop_drop,h.drop_eq,List.drop_left]

theorem Unread.readBit {buf : ByteBuffer} {c : UInt8} {rest : List UInt8}
    (h : Unread buf (c::rest)) (hpos : 7 ≤ buf.bitpos) :
    ∃ buf',buf.ReadBit=some (c.toNat.testBit 7,buf') ∧ buf'.bitpos=0 ∧ buf'.curbitval=c ∧
      Unread buf' rest := by
  have hbuf : Unread { buf with bitpos := buf.bitpos+1 } ([c]++rest) := ⟨h.1,h.2⟩
  obtain ⟨buf',hread,-,-,hrest⟩ := hbuf.read
  refine ⟨{ buf' with bitpos := 0,curbitval := c },?_,rfl,rfl,⟨hrest.1,hrest.2⟩⟩
  rw [List.length_singleton] at hread
  simp only [ByteBuffer.ReadBit,show buf.bitpos+1 > 7 by omega,if_true,hread,Option.bind_eq_bind,
    Option.bind_some,testBit_eq_shift,Option.pure_def,List.headD_cons]

theorem readBit_inside {buf : ByteBuffer} (hpos : buf.bitpos < 7) :
    buf.ReadBit=some (buf.curbitval.toNat.testBit (7-(buf.bitpos+1)),
      { buf with bitpos := buf.bitpos+1 }) := by
  simp only [ByteBuffer.ReadBit,show ¬ buf.bitpos+1 > 7 by omega,if_false,Option.bind_eq_bind,
    Option.bind_some,testBit_eq_shift,Option.pure_def]

/-- The reader is in step: the pending bits are those it has read of its current
byte, and the chunks are what is left. -/
inductive Sync (buf : ByteBuffer) : List Bool → Bool → List Chunk → Prop
  /-- At the end of a byte. -/
  | fresh {cs : List Chunk} (hpos : 7 ≤ buf.bitpos) (hunread : Unread buf (emit [] cs)) :
    Sync buf [] false cs
  /-- At the end of a flushed byte, whose next bit is clear. -/
  | stale {cs : List Chunk} (hpos : buf.bitpos < 7)
    (hnext : buf.curbitval.toNat.testBit (7-(buf.bitpos+1))=false)
    (hunread : Unread buf (emit [] cs)) : Sync buf [] true cs
  /-- Inside a byte. -/
  | inside {pending : List Bool} {cs : List Chunk} {rest : List UInt8} (hne : pending≠[])
    (hpos : buf.bitpos+1=pending.length) (hlen : pending.length < 8) (hunread : Unread buf rest)
    (hemit : emit pending cs=buf.curbitval::rest)
    (hfills : Fills pending.length (cs.map Chunk.piece)) : Sync buf pending false cs

/-- The call that reads a chunk back; it fails on another value. -/
def readChunk (buf : ByteBuffer) : Chunk → Option ByteBuffer
  | Chunk.bit b => buf.ReadBit.bind fun r => if r.1=b then some r.2 else none
  | Chunk.flushed bytes => (buf.read bytes.length).bind fun r => if r.1=bytes then some r.2 else none
  | Chunk.raw bytes => (buf.read bytes.length).bind fun r => if r.1=bytes then some r.2 else none

/-- The calls that read chunks back. -/
def readChunks : ByteBuffer → List Chunk → Option ByteBuffer
  | buf,[] => some buf
  | buf,c::cs => (readChunk buf c).bind fun buf => readChunks buf cs

/-- The outcome of one step in synchrony. -/
def InStep (buf : ByteBuffer) (pending : List Bool) (stale : Bool) (c : Chunk)
    (cs : List Chunk) : Prop :=
  ∃ buf' pending' stale',readChunk buf c=some buf' ∧ Sync buf' pending' stale' cs ∧
    advance (pending.length,stale) c.piece=(pending'.length,stale')

theorem Sync.bit {buf : ByteBuffer} {pending : List Bool} {b : Bool} {cs : List Chunk}
    (h : Sync buf pending false (Chunk.bit b::cs))
    (hfills : Fills ((pending.length+1)%8) (cs.map Chunk.piece)) :
    InStep buf pending false (Chunk.bit b) cs := by
  cases h with
  | fresh hpos hunread =>
    obtain ⟨more,rest,he⟩ := emit_of_fills (List.cons_ne_nil b []) (by simp) hfills
    have hemit : emit [] (Chunk.bit b::cs)=packed ([b]++more)::rest := he
    rw [hemit] at hunread
    obtain ⟨buf',hread,hpos',hcur,hunread'⟩ := hunread.readBit hpos
    have hb : (packed ([b]++more)).toNat.testBit 7=b :=
      (testBit_packed (i := 0) (by decide)).trans rfl
    refine ⟨buf',[b],false,?_,?_,rfl⟩
    · rw [readChunk,hread,Option.bind_some,hb,if_pos rfl]
    · exact Sync.inside (List.cons_ne_nil b []) (by rw [hpos']; rfl) (by simp) hunread'
        (by rw [hcur]; exact he) hfills
  | inside hne hpos hlen hunread hemit hfills' =>
    have hread : buf.ReadBit=_ := readBit_inside (by omega)
    rw [hpos] at hread
    rw [emit] at hemit
    by_cases hfull : pending.length+1=8
    · rw [if_pos hfull,List.cons.injEq] at hemit
      have hb : buf.curbitval.toNat.testBit (7-pending.length)=b := by
        rw [← hemit.1,testBit_packed hlen,List.getD_append_right _ _ _ _ le_rfl,Nat.sub_self]
        rfl
      refine ⟨_,[],false,?_,@Sync.fresh { buf with bitpos := pending.length } cs ?_ ?_,?_⟩
      · rw [readChunk,hread,Option.bind_some,hb,if_pos rfl]
      · show 7 ≤ pending.length
        omega
      · rw [hemit.2]; exact ⟨hunread.1,hunread.2⟩
      · simp only [Chunk.piece,advance,hfull]; rfl
    · rw [if_neg hfull] at hemit
      have hlen' : (pending++[b]).length=pending.length+1 := by
        rw [List.length_append,List.length_singleton]
      rw [Nat.mod_eq_of_lt (by omega)] at hfills
      obtain ⟨more,rest',he⟩ := @emit_of_fills (pending++[b]) cs (by simp) (by omega)
        (hlen'.symm ▸ hfills)
      have hb : buf.curbitval.toNat.testBit (7-pending.length)=b := by
        rw [hemit,List.cons.injEq] at he
        rw [he.1,testBit_packed hlen,List.append_assoc,List.getD_append_right _ _ _ _ le_rfl,
          Nat.sub_self]
        rfl
      refine ⟨_,pending++[b],false,?_,
        @Sync.inside { buf with bitpos := pending.length } (pending++[b]) cs _ (by simp)
          hlen'.symm (by omega) ⟨hunread.1,hunread.2⟩ hemit (hlen'.symm ▸ hfills),?_⟩
      · rw [readChunk,hread,Option.bind_some,hb,if_pos rfl]
      · simp only [Chunk.piece,advance,hlen',Nat.mod_eq_of_lt (by omega : pending.length+1 < 8)]

/-- A chunk of bytes, not a bit. -/
def OfBytes : Chunk → Prop
  | Chunk.bit _ => False
  | _ => True

theorem readChunk_bytes {buf buf' : ByteBuffer} {bytes : List UInt8}
    (h : buf.read bytes.length=some (bytes,buf')) :
    readChunk buf (Chunk.flushed bytes)=some buf' ∧ readChunk buf (Chunk.raw bytes)=some buf' := by
  simp only [readChunk,h,Option.bind_some,if_true,and_self]

/-- Reading bytes stays in step: in step no raw bytes are next while bits are pending. -/
theorem Sync.bytes {buf : ByteBuffer} {pending : List Bool} {stale : Bool} {c : Chunk}
    {cs : List Chunk} (h : Sync buf pending stale (c::cs)) (hc : OfBytes c) :
    Allowed (pending.length,stale) c.piece ∧ InStep buf pending stale c cs := by
  cases h with
  | fresh hpos hunread =>
    cases c with
    | bit b => exact hc.elim
    | flushed bytes =>
      obtain ⟨buf',hread,hpos',-,hunread'⟩ := Unread.read hunread
      exact ⟨trivial,buf',[],false,(readChunk_bytes hread).1,
        Sync.fresh (hpos'.symm ▸ hpos) hunread',rfl⟩
    | raw bytes =>
      obtain ⟨buf',hread,hpos',-,hunread'⟩ := Unread.read hunread
      exact ⟨rfl,buf',[],false,(readChunk_bytes hread).2,
        Sync.fresh (hpos'.symm ▸ hpos) hunread',rfl⟩
  | stale hpos hnext hunread =>
    cases c with
    | bit b => exact hc.elim
    | flushed bytes =>
      obtain ⟨buf',hread,hpos',hcur,hunread'⟩ := Unread.read hunread
      exact ⟨trivial,buf',[],true,(readChunk_bytes hread).1,
        Sync.stale (hpos'.symm ▸ hpos) (by rw [hpos',hcur]; exact hnext) hunread',rfl⟩
    | raw bytes =>
      obtain ⟨buf',hread,hpos',hcur,hunread'⟩ := Unread.read hunread
      exact ⟨rfl,buf',[],true,(readChunk_bytes hread).2,
        Sync.stale (hpos'.symm ▸ hpos) (by rw [hpos',hcur]; exact hnext) hunread',rfl⟩
  | inside hne hpos hlen hunread hemit hfills =>
    obtain ⟨n,hn⟩ := Nat.exists_eq_succ_of_ne_zero (List.length_eq_zero_iff.not.mpr hne)
    cases c with
    | bit b => exact hc.elim
    | raw bytes =>
      rw [hn] at hfills
      exact hfills.elim
    | flushed bytes =>
      rw [emit,tail,if_neg hne,List.append_assoc,List.singleton_append,List.cons.injEq] at hemit
      rw [← hemit.2] at hunread
      obtain ⟨buf',hread,hpos',hcur,hunread'⟩ := hunread.read
      have hnext : buf'.curbitval.toNat.testBit (7-(buf'.bitpos+1))=false := by
        rw [hpos',hcur,hpos,← hemit.1,testBit_packed hlen,List.getD_eq_default _ _ le_rfl]
      refine ⟨trivial,buf',[],true,(readChunk_bytes hread).1,
        Sync.stale (by omega) hnext hunread',?_⟩
      simp only [Chunk.piece,advance,Bool.false_or,List.length_nil,Prod.mk.injEq,true_and]
      exact decide_eq_true (List.length_eq_zero_iff.not.mpr hne)

/-- An aligned chunk is read back and the reader stays in step. -/
theorem Sync.step {buf : ByteBuffer} {pending : List Bool} {stale : Bool} {c : Chunk}
    {cs : List Chunk} (h : Sync buf pending stale (c::cs))
    (hm : Meets advance Allowed (pending.length,stale) ((c::cs).map Chunk.piece)) :
    InStep buf pending stale c cs := by
  cases c with
  | bit b =>
    obtain rfl : stale=false := hm.1
    exact h.bit (Fills.of_meets hm.2)
  | flushed bytes => exact (h.bytes trivial).2
  | raw bytes => exact (h.bytes trivial).2

/-- A set bit that is read back was aligned, and the reader is still in step. -/
theorem Sync.step_inv {buf buf' : ByteBuffer} {pending : List Bool} {stale : Bool} {c : Chunk}
    {cs : List Chunk} (h : Sync buf pending stale (c::cs)) (hb : ∀ d∈c::cs,Bright d)
    (hread : readChunk buf c=some buf') :
    Allowed (pending.length,stale) c.piece ∧ InStep buf pending stale c cs := by
  cases c with
  | flushed bytes => exact h.bytes trivial
  | raw bytes => exact h.bytes trivial
  | bit b =>
    obtain rfl : b=true := hb _ List.mem_cons_self
    cases h with
    | stale hpos hnext hunread =>
      rw [readChunk,readBit_inside hpos,hnext] at hread
      cases hread
    | fresh hpos hunread =>
      refine ⟨rfl,Sync.bit (Sync.fresh hpos hunread) ?_⟩
      by_contra hfills
      obtain ⟨c,rest,he,hc⟩ := emit_of_not_fills (List.cons_ne_nil true []) (by simp)
        (fun d hd => hb d (List.mem_cons_of_mem _ hd)) hfills
      have hemit : emit [] (Chunk.bit true::cs)=c::rest := he
      rw [hemit] at hunread
      obtain ⟨_,hbit,-⟩ := hunread.readBit hpos
      rw [readChunk,hbit,hc] at hread
      cases hread
    | inside hne hpos hlen hunread hemit hfills =>
      refine ⟨rfl,Sync.bit (Sync.inside hne hpos hlen hunread hemit hfills) ?_⟩
      obtain ⟨n,hn⟩ := Nat.exists_eq_succ_of_ne_zero (List.length_eq_zero_iff.not.mpr hne)
      rw [hn] at hfills ⊢
      exact hfills

/-- Aligned chunks are read back and the reader stays in step. -/
theorem Sync.run {xs cs : List Chunk} {buf : ByteBuffer} {pending : List Bool} {stale : Bool}
    (h : Sync buf pending stale (xs++cs))
    (hm : Meets advance Allowed (pending.length,stale) ((xs++cs).map Chunk.piece)) :
    ∃ buf' pending' stale',readChunks buf xs=some buf' ∧ Sync buf' pending' stale' cs ∧
      Meets advance Allowed (pending'.length,stale') (cs.map Chunk.piece) := by
  induction xs generalizing buf pending stale with
  | nil => exact ⟨buf,pending,stale,rfl,h,hm⟩
  | cons c xs ih =>
    obtain ⟨buf₁,pending₁,stale₁,hread,hsync,hadv⟩ := Sync.step h hm
    have hm' := hm.2
    rw [hadv] at hm'
    obtain ⟨buf',pending',stale',hreads,hrest⟩ := ih hsync hm'
    exact ⟨buf',pending',stale',by rw [readChunks,hread,Option.bind_some,hreads],hrest⟩

/-- Set bits that are read back, among bytes, were aligned, and the reader is still in step. -/
theorem Sync.run_inv {xs cs : List Chunk} {buf buf' : ByteBuffer} {pending : List Bool}
    {stale : Bool} (h : Sync buf pending stale (xs++cs)) (hb : ∀ d∈xs++cs,Bright d)
    (hread : readChunks buf xs=some buf') :
    ∃ pending' stale',Sync buf' pending' stale' cs ∧
      (Meets advance Allowed (pending'.length,stale') (cs.map Chunk.piece) →
        Meets advance Allowed (pending.length,stale) ((xs++cs).map Chunk.piece)) := by
  induction xs generalizing buf pending stale with
  | nil =>
    obtain rfl : buf=buf' := Option.some.inj hread
    exact ⟨pending,stale,h,id⟩
  | cons c xs ih =>
    obtain ⟨buf₁,hfirst,hrest⟩ := Option.bind_eq_some_iff.mp hread
    obtain ⟨hallowed,buf₂,pending₁,stale₁,hstep,hsync,hadv⟩ := Sync.step_inv h hb hfirst
    obtain rfl : buf₁=buf₂ := Option.some.inj (hfirst.symm.trans hstep)
    obtain ⟨pending',stale',hsync',himp⟩ :=
      ih hsync (fun d hd => hb d (List.mem_cons_of_mem c hd)) hrest
    refine ⟨pending',stale',hsync',fun hm => ⟨hallowed,?_⟩⟩
    rw [hadv]
    exact himp hm

theorem Sync.run_bytes {xs cs : List Chunk} {buf : ByteBuffer} {pending : List Bool}
    {stale : Bool} (h : Sync buf pending stale (xs++cs)) (hx : ∀ c∈xs,OfBytes c) :
    ∃ buf',readChunks buf xs=some buf' := by
  induction xs generalizing buf pending stale with
  | nil => exact ⟨buf,rfl⟩
  | cons c xs ih =>
    obtain ⟨-,buf₁,pending₁,stale₁,hread,hsync,-⟩ := Sync.bytes h (hx c List.mem_cons_self)
    obtain ⟨buf',hreads⟩ := ih hsync fun d hd => hx d (List.mem_cons_of_mem c hd)
    exact ⟨buf',by rw [readChunks,hread,Option.bind_some,hreads]⟩

theorem readChunk_bit {buf buf' : ByteBuffer} {b : Bool} :
    readChunk buf (Chunk.bit b)=some buf' ↔ buf.ReadBit=some (b,buf') := by
  rw [readChunk]
  cases hr : buf.ReadBit with
  | none => exact ⟨(by rintro ⟨⟩),(by rintro ⟨⟩)⟩
  | some r =>
    obtain ⟨c,buf₁⟩ := r
    rw [Option.bind_some,Option.ite_none_right_eq_some,Option.some.injEq,Option.some.injEq,
      Prod.mk.injEq]

/-- The value of `ReadBits` after reading bits on top of the value so far. -/
def word : List Bool → UInt32 → UInt32
  | [],acc => acc
  | b::bs,acc => word bs (if b then acc ||| UInt32.ofNat (1 <<< bs.length) else acc)

theorem toNat_word {bits : List Bool} (h : bits.length ≤ 32) (acc : UInt32) :
    (word bits acc).toNat=orBits bits acc.toNat := by
  induction bits generalizing acc with
  | nil => rfl
  | cons b bs ih =>
    rw [List.length_cons] at h
    rw [word,orBits,ih (by omega)]
    cases b with
    | false => rfl
    | true =>
      have hlt : 1 <<< bs.length < 2^32 := by
        rw [Nat.one_shiftLeft]
        exact Nat.pow_lt_pow_right (by decide) (by omega)
      simp only [if_true,UInt32.toNat_or,UInt32.toNat_ofNat',Nat.mod_eq_of_lt hlt]

theorem word_eq_iff {bits : List Bool} {n : ℕ} {v : UInt32} (hn : n ≤ 32) (hlen : bits.length=n)
    (hv : v.toNat < 2^n) : word bits 0=v ↔ bits=bitsOf v.toNat n := by
  subst hlen
  rw [← UInt32.toNat_inj,toNat_word hn]
  constructor
  · exact fun h => eq_bitsOf h
  · intro h
    rw [h,UInt32.toNat_zero,orBits_bitsOf,Nat.mod_eq_of_lt hv]

theorem ReadBits_of_chunks {buf buf' : ByteBuffer} {bits : List Bool} (acc : UInt32)
    (h : readChunks buf (bits.map Chunk.bit)=some buf') :
    buf.ReadBits acc bits.length=some (word bits acc,buf') := by
  induction bits generalizing buf acc with
  | nil =>
    obtain rfl : buf=buf' := Option.some.inj h
    rfl
  | cons b bs ih =>
    obtain ⟨buf₁,hfirst,hrest⟩ := Option.bind_eq_some_iff.mp h
    simp only [List.length_cons,ByteBuffer.ReadBits,readChunk_bit.mp hfirst,Option.bind_eq_bind,
      Option.bind_some]
    exact ih _ hrest

theorem chunks_of_ReadBits {buf buf' : ByteBuffer} {n : ℕ} {acc w : UInt32}
    (h : buf.ReadBits acc n=some (w,buf')) :
    ∃ bits : List Bool,bits.length=n ∧ word bits acc=w ∧
      readChunks buf (bits.map Chunk.bit)=some buf' := by
  induction n generalizing buf acc with
  | zero =>
    obtain ⟨rfl,rfl⟩ := Prod.mk.inj (Option.some.inj h)
    exact ⟨[],rfl,rfl,rfl⟩
  | succ n ih =>
    obtain ⟨⟨b,buf₁⟩,hbit,hrest⟩ := Option.bind_eq_some_iff.mp h
    obtain ⟨bits,rfl,hw,hreads⟩ := ih hrest
    refine ⟨b::bits,rfl,hw,?_⟩
    rw [List.map_cons,readChunks,readChunk_bit.mpr hbit,Option.bind_some]
    exact hreads

theorem readChunk_flushed {buf buf' : ByteBuffer} {bytes : List UInt8}
    (h : readChunk buf (Chunk.flushed bytes)=some buf') :
    buf.read bytes.length=some (bytes,buf') := by
  obtain ⟨⟨got,buf₁⟩,hr,hif⟩ := Option.bind_eq_some_iff.mp h
  rw [Option.ite_none_right_eq_some,Option.some.injEq] at hif
  obtain ⟨rfl,rfl⟩ := hif
  exact hr

theorem read_eq_some {buf buf' : ByteBuffer} {len : ℕ} {bytes : List UInt8}
    (h : buf.read len=some (bytes,buf')) :
    buf'={ buf with rpos := buf.rpos+len } ∧
      buf.storage.drop buf.rpos=bytes++buf'.storage.drop buf'.rpos := by
  rw [ByteBuffer.read] at h
  split at h
  · cases h
  obtain ⟨rfl,rfl⟩ := Prod.mk.inj (Option.some.inj h)
  refine ⟨rfl,?_⟩
  rw [← List.drop_drop]
  exact (List.take_append_drop _ _).symm

/-- The loop of `operator>>` stops at the NUL. -/
theorem stringLoop_append {value : List UInt8} (h : 0∉value) (rest : List UInt8) :
    ByteBuffer.stringLoop (value++0::rest)=(value,value.length+1) := by
  induction value with
  | nil => rfl
  | cons c cs ih =>
    rw [List.mem_cons,not_or] at h
    rw [List.cons_append,ByteBuffer.stringLoop,if_neg (Ne.symm h.1),ih h.2]
    rfl

theorem readString_of_chunks {buf buf' : ByteBuffer} {value : List UInt8} (h : 0∉value)
    (hr : readChunks buf ((if value=[] then [] else [Chunk.raw value])++ [Chunk.flushed [0]])=
      some buf') : buf.readString=(value,buf') := by
  have hfinish : ∀ {buf₁ : ByteBuffer},readChunks buf₁ [Chunk.flushed [0]]=some buf' →
      buf'={ buf₁ with rpos := buf₁.rpos+1 } ∧
        buf₁.storage.drop buf₁.rpos=0::buf'.storage.drop buf'.rpos := fun {buf₁} h₁ => by
    rw [readChunks] at h₁
    obtain ⟨buf₂,hread,hrest⟩ := Option.bind_eq_some_iff.mp h₁
    obtain rfl : buf₂=buf' := Option.some.inj hrest
    exact read_eq_some (readChunk_flushed hread)
  by_cases hv : value=[]
  · subst hv
    obtain ⟨rfl,hdrop⟩ := hfinish hr
    simp only [ByteBuffer.readString,hdrop,ByteBuffer.stringLoop,if_true]
  · rw [if_neg hv,List.singleton_append,readChunks] at hr
    obtain ⟨buf₁,hread,hrest⟩ := Option.bind_eq_some_iff.mp hr
    obtain ⟨rfl,hfront⟩ := read_eq_some (readChunk_flushed hread)
    obtain ⟨rfl,hnul⟩ := hfinish hrest
    rw [hnul] at hfront
    simp only [ByteBuffer.readString,hfront,stringLoop_append h,Nat.add_assoc]

/-- A read whose chunks are those of a write returns the value written. -/
theorem read_of_chunks {buf buf' : ByteBuffer} {op : Write}
    (h : readChunks buf (chunks op)=some buf') : op.field.read buf=some (op.value,buf') := by
  cases op with
  | bit b =>
    obtain ⟨buf₁,hread,hrest⟩ := Option.bind_eq_some_iff.mp h
    obtain rfl : buf₁=buf' := Option.some.inj hrest
    simp only [Write.field,Field.read,readChunk_bit.mp hread,Option.map_some,Write.value]
  | bits n value hn hlt =>
    have hread := ReadBits_of_chunks 0 h
    rw [length_bitsOf,(word_eq_iff hn.2 (length_bitsOf _ _) hlt).mpr rfl] at hread
    simp only [Write.field,Field.read,hread,Option.map_some,Write.value]
  | int width value hlt =>
    obtain ⟨buf₁,hread,hrest⟩ := Option.bind_eq_some_iff.mp h
    obtain rfl : buf₁=buf' := Option.some.inj hrest
    have hbytes := readChunk_flushed hread
    rw [length_leBytes] at hbytes
    simp only [Write.field,Field.read,hbytes,Option.map_some,Write.value,ofDigits_leBytes hlt]
  | string value hnul =>
    simp only [Write.field,Field.read,readString_of_chunks hnul h,Write.value]
  | byteSeq b =>
    by_cases hb : b≠0
    · rw [chunks,if_pos hb] at h
      obtain ⟨buf₁,hread,hrest⟩ := Option.bind_eq_some_iff.mp h
      obtain rfl : buf₁=buf' := Option.some.inj hrest
      have hbytes := readChunk_flushed hread
      have hback : 1 ^^^ (b ^^^ 1)=b := by
        rw [UInt8.xor_comm b,← UInt8.xor_assoc,UInt8.xor_self,UInt8.zero_xor]
      have hseq : buf.ReadByteSeq 1=some (b,buf₁) := by
        rw [List.length_singleton] at hbytes
        rw [ByteBuffer.ReadByteSeq,if_pos (by decide),hbytes]
        exact congrArg (fun v => some (v,buf₁)) hback
      simp only [Write.field,Field.read,decide_eq_true hb,if_true,hseq,Option.map_some,Write.value]
    · rw [chunks,if_neg hb] at h
      obtain rfl : buf=buf' := Option.some.inj h
      rw [not_not] at hb
      subst hb
      rfl

/-- In step, a read that returns the value of a bright write has read its chunks. -/
theorem chunks_of_read {buf buf' : ByteBuffer} {pending : List Bool} {stale : Bool} {op : Write}
    {cs : List Chunk} (h : Sync buf pending stale (chunks op++cs))
    (hread : op.field.read buf=some (op.value,buf')) :
    readChunks buf (chunks op)=some buf' := by
  have hbytes : (∀ c∈chunks op,OfBytes c) → readChunks buf (chunks op)=some buf' := fun hx => by
    obtain ⟨buf₁,hreads⟩ := h.run_bytes hx
    have := (read_of_chunks hreads).symm.trans hread
    rw [(Prod.mk.inj (Option.some.inj this)).2] at hreads
    exact hreads
  cases op with
  | bit b =>
    obtain ⟨⟨c,buf₁⟩,hbit,heq⟩ := Option.map_eq_some_iff.mp hread
    obtain ⟨hval,rfl⟩ := Prod.mk.inj heq
    obtain rfl : c=b := Value.bit.inj hval
    rw [chunks,readChunks,readChunk_bit.mpr hbit]
    rfl
  | bits n value hn hlt =>
    obtain ⟨⟨w,buf₁⟩,hbits,heq⟩ := Option.map_eq_some_iff.mp hread
    obtain ⟨hval,rfl⟩ := Prod.mk.inj heq
    obtain rfl : w=value := Value.bits.inj hval
    obtain ⟨bits,hlen,hword,hreads⟩ := chunks_of_ReadBits hbits
    rw [(word_eq_iff hn.2 hlen hlt).mp hword] at hreads
    exact hreads
  | int width value hlt =>
    exact hbytes fun c hc => by rw [List.mem_singleton.mp hc]; trivial
  | string value hnul =>
    refine hbytes fun c hc => ?_
    rcases List.mem_append.mp hc with hc|hc
    · by_cases hv : value=[]
      · rw [if_pos hv] at hc; cases hc
      · rw [if_neg hv] at hc
        rw [List.mem_singleton.mp hc]; trivial
    · rw [List.mem_singleton.mp hc]; trivial
  | byteSeq b =>
    refine hbytes fun c hc => ?_
    by_cases hb : b≠0
    · rw [chunks,if_pos hb] at hc
      rw [List.mem_singleton.mp hc]; trivial
    · rw [chunks,if_neg hb] at hc; cases hc

/-- In step, an aligned sequence is read back to its values and to the end of the buffer. -/
theorem readAll_of_aligned {ops : List Write} {buf : ByteBuffer} {pending : List Bool}
    {stale : Bool} (h : Sync buf pending stale (ops.flatMap chunks))
    (hm : Meets advance Allowed (pending.length,stale) ((ops.flatMap chunks).map Chunk.piece)) :
    ∃ buf',readAll buf (ops.map Write.field)=some (ops.map Write.value,buf') ∧
      buf'.rpos=buf'.size := by
  induction ops generalizing buf pending stale with
  | nil =>
    have hend : ∀ {bytes : List UInt8},Unread buf bytes → bytes=[] → buf.rpos=buf.size :=
      fun hu hb => by
        have := hu.length
        rw [hb,List.length_nil,Nat.zero_add] at this
        exact this
    refine ⟨buf,rfl,?_⟩
    cases h with
    | fresh hpos hunread => exact hend hunread rfl
    | stale hpos hnext hunread => exact hend hunread rfl
    | inside hne hpos hlen hunread hemit hfills =>
      rw [List.flatMap_nil,emit,tail,if_neg hne,List.cons.injEq] at hemit
      exact hend hunread hemit.2.symm
  | cons op ops ih =>
    rw [List.flatMap_cons] at h hm
    obtain ⟨buf₁,pending₁,stale₁,hreads,hsync,hrest⟩ := Sync.run h hm
    obtain ⟨buf',hall,hend⟩ := ih hsync hrest
    refine ⟨buf',?_,hend⟩
    simp only [List.map_cons,readAll,read_of_chunks hreads,Option.bind_eq_bind,Option.bind_some,
      hall,Option.pure_def]

/-- In step, a bright sequence that is read back to its values is aligned. -/
theorem aligned_of_readAll {ops : List Write} {buf buf' : ByteBuffer} {pending : List Bool}
    {stale : Bool} (h : Sync buf pending stale (ops.flatMap chunks))
    (hb : ∀ c∈ops.flatMap chunks,Bright c)
    (hread : readAll buf (ops.map Write.field)=some (ops.map Write.value,buf')) :
    Meets advance Allowed (pending.length,stale) ((ops.flatMap chunks).map Chunk.piece) := by
  induction ops generalizing buf pending stale with
  | nil => trivial
  | cons op ops ih =>
    obtain ⟨⟨value,buf₁⟩,hfirst,hread⟩ := Option.bind_eq_some_iff.mp hread
    obtain ⟨⟨values,buf₂⟩,hrest,heq⟩ := Option.bind_eq_some_iff.mp hread
    obtain ⟨hvals,rfl⟩ := Prod.mk.inj (Option.some.inj heq)
    obtain ⟨rfl,rfl⟩ := List.cons.inj hvals
    rw [List.flatMap_cons] at h hb ⊢
    obtain ⟨pending',stale',hsync,himp⟩ := Sync.run_inv h hb (chunks_of_read h hfirst)
    exact himp (ih hsync (fun c hc => hb c (List.mem_append_right _ hc)) hrest)

/-- Set bits fit. -/
theorem toNat_ones_lt (n : ℕ) : (UInt32.ofNat (2^n-1)).toNat < 2^n := by
  have hpos : 0 < 2^n := Nat.two_pow_pos n
  exact (Nat.mod_le _ _).trans_lt (by omega)

theorem zero_lt_width (width : IntWidth) : 0 < 256^width.bytes := Nat.pow_pos (by decide)

theorem zero_not_mem_replicate (length : ℕ) : (0 : UInt8)∉List.replicate length 0x61 := by
  intro h
  cases List.eq_of_mem_replicate h

/-- The write of a kind for which losing step shows: set bits, strings of `a`. -/
def bright : Field → Write
  | Field.bit => Write.bit true
  | Field.bits n hn => Write.bits n (UInt32.ofNat (2^n-1)) hn (toNat_ones_lt n)
  | Field.int width => Write.int width 0 (zero_lt_width width)
  | Field.string length => Write.string (List.replicate length 0x61) (zero_not_mem_replicate length)
  | Field.byteSeq present => Write.byteSeq (if present then 1 else 0)

theorem field_bright (field : Field) : (bright field).field=field := by
  cases field with
  | bit => rfl
  | bits n hn => rfl
  | int width => rfl
  | string length => rw [bright,Write.field,List.length_replicate]
  | byteSeq present => cases present <;> rfl

theorem bright_chunks {field : Field} {c : Chunk} (hc : c∈chunks (bright field)) : Bright c := by
  cases field with
  | bit => rw [List.mem_singleton.mp hc]; rfl
  | bits n hn =>
    have hones : ∀ k ≤ n,∀ b∈bitsOf (2^n-1) k,b=true := by
      intro k hk
      induction k with
      | zero => exact fun b hb => by cases hb
      | succ k ih =>
        intro b hb
        rcases List.mem_cons.mp hb with rfl|hb
        · rw [Nat.testBit_two_pow_sub_one]
          exact decide_eq_true hk
        · exact ih (by omega) b hb
    have hlt : 2^n-1 < 2^32 :=
      (Nat.sub_lt (Nat.two_pow_pos n) Nat.one_pos).trans_le (Nat.pow_le_pow_right (by decide) hn.2)
    obtain ⟨b,hb,rfl⟩ := List.mem_map.mp hc
    rw [UInt32.toNat_ofNat',Nat.mod_eq_of_lt hlt] at hb
    exact hones n le_rfl b hb
  | int width => rw [List.mem_singleton.mp hc]; trivial
  | string length =>
    cases length with
    | zero => rw [List.mem_singleton.mp hc]; trivial
    | succ length =>
      rcases List.mem_append.mp hc with hc|hc
      · rw [if_neg (by exact List.cons_ne_nil _ _)] at hc
        rw [List.mem_singleton.mp hc]
        exact ⟨0x61,List.replicate length 0x61,rfl,by decide⟩
      · rw [List.mem_singleton.mp hc]; trivial
  | byteSeq present =>
    cases present with
    | false => cases hc
    | true => rw [List.mem_singleton.mp hc]; trivial

/-- The reader of a message begins in step. -/
theorem sync_holding (cs : List Chunk) : Sync (ByteBuffer.holding (emit [] cs)) [] false cs :=
  Sync.fresh (show 7 ≤ 8 by decide) ⟨Nat.zero_le _,rfl⟩

/-- An interleaving of writes round-trips for all values exactly if it is
aligned and the buffer has room for it. -/
theorem roundTrip_iff (fields : List Field) :
    (∀ ops : List Write,ops.map Write.field=fields → RoundTrip ops) ↔
      Room 0 0 (fields.flatMap pieces) ∧ Aligned fields := by
  constructor
  · intro h
    have hfields : (fields.map bright).map Write.field=fields := by
      rw [List.map_map]
      exact (List.map_congr_left fun field _ => field_bright field).trans (List.map_id fields)
    obtain ⟨bytes,buf,hwritten,hread,-⟩ := h _ hfields
    rw [written_eq,Option.ite_none_right_eq_some,Option.some.injEq] at hwritten
    obtain ⟨hroom,rfl⟩ := hwritten
    have haligned := aligned_of_readAll (sync_holding _) (fun c hc => by
      obtain ⟨op,hop,hc⟩ := List.mem_flatMap.mp hc
      obtain ⟨field,-,rfl⟩ := List.mem_map.mp hop
      exact bright_chunks hc) hread
    rw [pieces_flatMap] at haligned
    rw [hfields] at hroom haligned
    exact ⟨hroom,haligned⟩
  · rintro ⟨hroom,haligned⟩ ops rfl
    obtain ⟨buf,hread,hend⟩ := readAll_of_aligned (sync_holding (ops.flatMap chunks)) (by
      rw [pieces_flatMap]; exact haligned)
    exact ⟨_,buf,by rw [written_eq,if_pos hroom],hread,hend⟩

/-- Eight bits, a string, a partial byte, an integer and a byte of a guid read
back for all values. -/
theorem roundTrip_guid_query (ops : List Write) :
    ops.map Write.field=[Field.bits 8 (by decide),Field.string 3,Field.bits 5 (by decide),
      Field.int IntWidth.int32,Field.byteSeq true] → RoundTrip ops :=
  (roundTrip_iff _).mpr (by decide) ops

/-- A set bit before a nonempty string, and one after an integer that flushed
another bit, are not read back. -/
theorem mixed_writes_break :
    ¬ RoundTrip [Write.bit true,Write.string [0x61] (by decide)] ∧
    ¬ RoundTrip [Write.bit true,Write.int IntWidth.int8 1 (by decide),Write.bit true] := by
  constructor
  · rintro ⟨bytes,buf,hw,hr,-⟩
    have hbytes : written [Write.bit true,Write.string [0x61] (by decide)]=
        some [0x61,0x80,0] := by decide
    have hvalues : (readAll (ByteBuffer.holding [0x61,0x80,0]) [Field.bit,Field.string 1]).map
        Prod.fst=some [Value.bit false,Value.string [0x80]] := by decide
    obtain rfl := Option.some.inj (hbytes.symm.trans hw)
    have hread : readAll _ [Field.bit,Field.string 1]=_ := hr
    rw [hread] at hvalues
    exact absurd hvalues (by simp [Write.value])
  · rintro ⟨bytes,buf,hw,hr,-⟩
    have hbytes : written [Write.bit true,Write.int IntWidth.int8 1 (by decide),Write.bit true]=
        some [0x80,1,0x80] := by decide
    have hvalues : (readAll (ByteBuffer.holding [0x80,1,0x80])
        [Field.bit,Field.int IntWidth.int8,Field.bit]).map Prod.fst=
          some [Value.bit true,Value.int 1,Value.bit false] := by decide
    obtain rfl := Option.some.inj (hbytes.symm.trans hw)
    have hread : readAll _ [Field.bit,Field.int IntWidth.int8,Field.bit]=_ := hr
    rw [hread] at hvalues
    exact absurd hvalues (by simp [Write.value])

end Projectnelth.ByteBufferRoundTrip
