import Mathlib

/-!
# Bits in bytes and numbers in bits

Encodings that binary formats share: a run of at most eight bits as one
byte, the first bit highest and the missing ones zero; a number as a run of
bits, the highest first; a number as a fixed count of bytes, the lowest first;
bytes as the run of their bits, and a single bit of a byte set or cleared.
-/

namespace Projectnelth.BitBytes

/-- The byte of a run of bits, the first bit highest; bits past the eighth are dropped. -/
def packBits : List Bool → ℕ
  | [] => 0
  | b::bs => (if b then 128 else 0) ||| packBits bs >>> 1

theorem packBits_lt (bits : List Bool) : packBits bits < 2^8 := by
  induction bits with
  | nil => exact Nat.two_pow_pos 8
  | cons b bs ih =>
    have hb : (if b then 128 else 0) < 2^8 := by cases b <;> decide
    have hs : packBits bs >>> 1 < 2^8 := by rw [Nat.shiftRight_eq_div_pow]; omega
    exact Nat.or_lt_two_pow hb hs

/-- Bit `i` of the run is bit `7-i` of the byte, zero where the run has ended. -/
theorem testBit_packBits {bits : List Bool} {i : ℕ} (hi : i < 8) :
    (packBits bits).testBit (7-i)=bits.getD i false := by
  induction bits generalizing i with
  | nil => simp only [packBits,Nat.zero_testBit,List.getD_nil]
  | cons b bs ih =>
    simp only [packBits,Nat.testBit_or,Nat.testBit_shiftRight]
    cases i with
    | zero =>
      have htop : (packBits bs).testBit 8=false := Nat.testBit_lt_two_pow (packBits_lt bs)
      rw [Nat.sub_zero,htop,Bool.or_false,List.getD_cons_zero]
      cases b <;> decide
    | succ i =>
      have hlow : (if b then 128 else 0 : ℕ).testBit (7-(i+1))=false := by
        cases b with
        | false => exact Nat.zero_testBit _
        | true => exact Nat.testBit_two_pow_of_ne (n := 7) (by omega)
      rw [hlow,Bool.false_or,show 1+(7-(i+1))=7-i by omega,ih (by omega),List.getD_cons_succ]

/-- A further bit is or-ed in at its place. -/
theorem packBits_concat {bits : List Bool} (b : Bool) (h : bits.length ≤ 7) :
    packBits (bits++[b])=packBits bits ||| (if b then 1 <<< (7-bits.length) else 0) := by
  induction bits with
  | nil => cases b <;> decide
  | cons c cs ih =>
    rw [List.length_cons] at h
    simp only [List.cons_append,packBits,List.length_cons]
    rw [ih (by omega),Nat.shiftRight_or_distrib,← Nat.or_assoc]
    congr 1
    cases b with
    | false => simp only [Bool.false_eq_true,if_false,Nat.zero_shiftRight]
    | true =>
      simp only [if_true]
      rw [show 7-cs.length=7-(cs.length+1)+1 by omega,Nat.shiftLeft_succ,
        Nat.shiftRight_eq_div_pow]
      omega

/-- The low `n` bits of a number, the highest first. -/
def bitsOf (v : ℕ) : ℕ → List Bool
  | 0 => []
  | n+1 => v.testBit n::bitsOf v n

@[simp] theorem length_bitsOf (v n : ℕ) : (bitsOf v n).length=n := by
  induction n with
  | zero => rfl
  | succ n ih => rw [bitsOf,List.length_cons,ih]

/-- A run of bits or-ed into an accumulator, the highest bit first. -/
def orBits : List Bool → ℕ → ℕ
  | [],acc => acc
  | b::bs,acc => orBits bs (if b then acc ||| 1 <<< bs.length else acc)

/-- Or-ing in adds nothing to and takes nothing from what is there. -/
theorem orBits_eq (bits : List Bool) (acc : ℕ) : orBits bits acc=acc ||| orBits bits 0 := by
  induction bits generalizing acc with
  | nil => exact (Nat.or_zero acc).symm
  | cons b bs ih =>
    cases b with
    | false => exact ih acc
    | true =>
      simp only [orBits,if_true]
      rw [ih,ih (0 ||| 1 <<< bs.length),Nat.zero_or,Nat.or_assoc]

theorem orBits_lt (bits : List Bool) : orBits bits 0 < 2^bits.length := by
  induction bits with
  | nil => exact Nat.one_pos
  | cons b bs ih =>
    have hlt : (if b then 0 ||| 1 <<< bs.length else 0) < 2^(bs.length+1) := by
      cases b with
      | false => exact Nat.two_pow_pos _
      | true =>
        simp only [if_true,Nat.zero_or,Nat.one_shiftLeft]
        exact Nat.pow_lt_pow_right (by decide) (Nat.lt_succ_self _)
    rw [orBits,orBits_eq,List.length_cons]
    exact Nat.or_lt_two_pow hlt (ih.trans (Nat.pow_lt_pow_right (by decide) (Nat.lt_succ_self _)))

theorem orBits_cons (b : Bool) (bs : List Bool) :
    orBits (b::bs) 0=(if b then 2^bs.length else 0) ||| orBits bs 0 := by
  cases b with
  | false => simp only [orBits,Bool.false_eq_true,if_false,Nat.zero_or]
  | true =>
    simp only [orBits,if_true]
    rw [orBits_eq,Nat.zero_or,Nat.one_shiftLeft]

/-- The bits of the number a run of bits stands for are the run. -/
theorem bitsOf_orBits (bits : List Bool) (high : ℕ) :
    bitsOf (high*2^bits.length ||| orBits bits 0) bits.length=bits := by
  induction bits generalizing high with
  | nil => rfl
  | cons b bs ih =>
    have htop : (high*2^(bs.length+1) ||| orBits (b::bs) 0).testBit bs.length=b := by
      have hlow : (orBits bs 0).testBit bs.length=false :=
        Nat.testBit_lt_two_pow (orBits_lt bs)
      rw [orBits_cons,Nat.testBit_or,Nat.testBit_or,Nat.testBit_mul_two_pow,hlow]
      cases b <;> simp
    have hrest : high*2^(bs.length+1) ||| orBits (b::bs) 0=
        (2*high+(if b then 1 else 0))*2^bs.length ||| orBits bs 0 := by
      rw [orBits_cons,← Nat.or_assoc]
      congr 1
      cases b with
      | false =>
        simp only [Bool.false_eq_true,if_false,Nat.or_zero,Nat.add_zero]
        rw [Nat.pow_succ]; ring
      | true =>
        simp only [if_true]
        rw [Nat.mul_comm high,← Nat.two_pow_add_eq_or_of_lt
          (Nat.pow_lt_pow_right (by decide) (Nat.lt_succ_self _)),Nat.pow_succ]
        ring
    rw [List.length_cons,bitsOf,htop,hrest,ih]

/-- The number that the low `n` bits stand for. -/
theorem orBits_bitsOf (v n : ℕ) : orBits (bitsOf v n) 0=v%2^n := by
  induction n with
  | zero => rw [Nat.pow_zero,Nat.mod_one]; rfl
  | succ n ih =>
    rw [bitsOf,orBits_cons,length_bitsOf,ih]
    refine Nat.eq_of_testBit_eq fun i => ?_
    rw [Nat.testBit_or,Nat.testBit_mod_two_pow,Nat.testBit_mod_two_pow]
    rcases Nat.lt_trichotomy i n with hi|rfl|hi
    · have hne : (if v.testBit n then 2^n else 0 : ℕ).testBit i=false := by
        split
        · exact Nat.testBit_two_pow_of_ne (Nat.ne_of_gt hi)
        · exact Nat.zero_testBit i
      simp only [hne,hi,Nat.lt_succ_of_lt hi,decide_true,Bool.true_and,Bool.false_or]
    · cases hb : v.testBit i <;> simp
    have hne : (if v.testBit n then 2^n else 0 : ℕ).testBit i=false := by
      split
      · exact Nat.testBit_two_pow_of_ne (Nat.ne_of_lt hi)
      · exact Nat.zero_testBit i
    have h1 : ¬ i < n := Nat.lt_asymm hi
    have h2 : ¬ i < n+1 := by omega
    simp only [hne,h1,h2,decide_false,Bool.false_and,Bool.or_false]

/-- A run of bits that stands for a number consists of the number's bits. -/
theorem eq_bitsOf {bits : List Bool} {v : ℕ} (h : orBits bits 0=v) :
    bits=bitsOf v bits.length := by
  have := bitsOf_orBits bits 0
  rw [Nat.zero_mul,Nat.zero_or,h] at this
  exact this.symm

/-- The bytes of a number, the lowest first. -/
def leBytes : ℕ → ℕ → List UInt8
  | 0,_ => []
  | size+1,v => UInt8.ofNat v::leBytes size (v/256)

@[simp] theorem length_leBytes (size v : ℕ) : (leBytes size v).length=size := by
  induction size generalizing v with
  | zero => rfl
  | succ size ih => rw [leBytes,List.length_cons,ih]

/-- A number that fits comes back from its bytes. -/
theorem ofDigits_leBytes {size v : ℕ} (h : v < 256^size) :
    Nat.ofDigits 256 ((leBytes size v).map UInt8.toNat)=v := by
  induction size generalizing v with
  | zero => rw [Nat.pow_zero] at h; exact (Nat.lt_one_iff.mp h).symm
  | succ size ih =>
    have hv : v/256 < 256^size := by
      rw [Nat.pow_succ] at h
      exact Nat.div_lt_of_lt_mul (by rw [Nat.mul_comm]; exact h)
    rw [leBytes,List.map_cons,Nat.ofDigits_cons,ih hv,UInt8.toNat_ofNat']
    exact Nat.mod_add_div v 256

/-! ## Bytes as bits -/

theorem getElem?_bitsOf {v n i : ℕ} (hi : i < n) : (bitsOf v n)[i]?=some (v.testBit (n-1-i)) := by
  induction n generalizing i with
  | zero => omega
  | succ n ih =>
    cases i with
    | zero => rfl
    | succ i =>
      rw [bitsOf,List.getElem?_cons_succ,ih (by omega)]
      congr 2
      omega

/-- Numbers below `2^n` are told apart by their bits. -/
theorem bitsOf_injective {n v w : ℕ} (hv : v < 2^n) (hw : w < 2^n) (h : bitsOf v n=bitsOf w n) :
    v=w := by
  rw [← Nat.mod_eq_of_lt hv,← Nat.mod_eq_of_lt hw,← orBits_bitsOf,← orBits_bitsOf,h]

/-- The bits of bytes, the highest of the first byte first. -/
def bitsOfBytes (bytes : List UInt8) : List Bool := bytes.flatMap fun c => bitsOf c.toNat 8

theorem bitsOfBytes_cons (c : UInt8) (bytes : List UInt8) :
    bitsOfBytes (c::bytes)=bitsOf c.toNat 8++bitsOfBytes bytes := rfl

@[simp] theorem bitsOfBytes_append (bytes rest : List UInt8) :
    bitsOfBytes (bytes++rest)=bitsOfBytes bytes++bitsOfBytes rest := List.flatMap_append

@[simp] theorem length_bitsOfBytes (bytes : List UInt8) :
    (bitsOfBytes bytes).length=8*bytes.length := by
  induction bytes with
  | nil => rfl
  | cons c bytes ih =>
    rw [bitsOfBytes_cons,List.length_append,length_bitsOf,ih,List.length_cons]
    omega

theorem bitsOfBytes_injective {bytes bytes' : List UInt8}
    (h : bitsOfBytes bytes=bitsOfBytes bytes') : bytes=bytes' := by
  induction bytes generalizing bytes' with
  | nil =>
    have hlen := congrArg List.length h
    rw [length_bitsOfBytes,length_bitsOfBytes] at hlen
    exact (List.length_eq_zero_iff.mp (by rw [List.length_nil] at hlen; omega)).symm
  | cons c bytes ih =>
    cases bytes' with
    | nil => cases congrArg List.length h
    | cons c' bytes' =>
      rw [bitsOfBytes_cons,bitsOfBytes_cons] at h
      obtain ⟨hhead,htail⟩ := List.append_inj h (by rw [length_bitsOf,length_bitsOf])
      rw [UInt8.toNat_inj.mp (bitsOf_injective c.toNat_lt c'.toNat_lt hhead),ih htail]

/-- Bit `pos` of a byte, counted from the highest, set or cleared. -/
def setBit (byte : UInt8) (pos : ℕ) (bit : Bool) : UInt8 :=
  if bit=true then byte ||| 1 <<< UInt8.ofNat (7-pos)
  else byte &&& ~~~(1 <<< UInt8.ofNat (7-pos))

theorem testBit_one_shiftLeft {k : ℕ} (hk : k < 8) (i : ℕ) :
    (1 <<< UInt8.ofNat k : UInt8).toNat.testBit i=decide (k=i) := by
  have hpow : ∀ k < 8,(1 <<< UInt8.ofNat k : UInt8).toNat=2^k := by decide
  rw [hpow k hk,Nat.testBit_two_pow]

theorem testBit_not (byte : UInt8) {i : ℕ} (hi : i < 8) :
    (~~~byte).toNat.testBit i= !byte.toNat.testBit i := by
  rw [← UInt8.toNat_toBitVec,← UInt8.toNat_toBitVec,BitVec.testBit_toNat,BitVec.testBit_toNat,
    UInt8.toBitVec_not,BitVec.getLsbD_not,decide_eq_true hi,Bool.true_and]

theorem testBit_setBit (byte : UInt8) {pos i : ℕ} (hpos : pos < 8) (bit : Bool) (hi : i < 8) :
    (setBit byte pos bit).toNat.testBit i=if 7-pos=i then bit else byte.toNat.testBit i := by
  have hk : 7-pos < 8 := by omega
  unfold setBit
  cases bit with
  | true =>
    rw [if_pos rfl,UInt8.toNat_or,Nat.testBit_or,testBit_one_shiftLeft hk]
    split <;> simp [*]
  | false =>
    rw [if_neg Bool.false_ne_true,UInt8.toNat_and,Nat.testBit_and,testBit_not _ hi,
      testBit_one_shiftLeft hk]
    split <;> simp [*]

theorem bitsOf_setBit (byte : UInt8) {pos : ℕ} (hpos : pos < 8) (bit : Bool) :
    bitsOf (setBit byte pos bit).toNat 8=(bitsOf byte.toNat 8).set pos bit := by
  refine List.ext_getElem? fun i => ?_
  rw [List.getElem?_set,length_bitsOf]
  by_cases hi : i < 8
  · rw [getElem?_bitsOf hi,getElem?_bitsOf hi,testBit_setBit _ hpos _ (by omega),if_pos hpos]
    by_cases heq : pos=i
    · rw [if_pos heq,if_pos (by omega)]
    · rw [if_neg heq,if_neg (by omega)]
  · rw [List.getElem?_eq_none (by rw [length_bitsOf]; omega),if_neg (by omega),
      List.getElem?_eq_none (by rw [length_bitsOf]; omega)]

theorem bitsOfBytes_modify (bytes : List UInt8) (pos : ℕ) (bit : Bool) :
    bitsOfBytes (bytes.modify (pos/8) fun byte => setBit byte (pos%8) bit)=
      (bitsOfBytes bytes).set pos bit := by
  induction bytes generalizing pos with
  | nil => rw [List.modify_nil]; rfl
  | cons c bytes ih =>
    by_cases hpos : pos < 8
    · rw [Nat.div_eq_of_lt hpos,Nat.mod_eq_of_lt hpos,List.modify_zero_cons,bitsOfBytes_cons,
        bitsOfBytes_cons,bitsOf_setBit _ hpos,List.set_append,if_pos (by rw [length_bitsOf]; omega)]
    obtain ⟨rest,rfl⟩ : ∃ rest,pos=rest+8 := ⟨pos-8,by omega⟩
    rw [Nat.add_div_right _ (by decide),Nat.add_mod_right,List.modify_succ_cons,bitsOfBytes_cons,
      bitsOfBytes_cons,ih,List.set_append,if_neg (by rw [length_bitsOf]; omega),length_bitsOf,
      Nat.add_sub_cancel]

end Projectnelth.BitBytes
