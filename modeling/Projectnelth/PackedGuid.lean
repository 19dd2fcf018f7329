import Mathlib
import Projectnelth.ByteBufferModel

/-!
# Packed guids

A guid travels as a byte that marks its bytes other than zero, and those bytes, the lowest first.
The writer shifts the guid down until nothing is left; the reader asks the eight marks. It
checks the end of the buffer before each byte.
-/

namespace Projectnelth.ByteBufferModel

theorem shiftRight_lt {guid : UInt64} (hguid : guid≠0) : (guid >>> 8).toNat < guid.toNat := by
  have hpos : 0 < guid.toNat := Nat.pos_of_ne_zero fun hzero => hguid (UInt64.toNat_inj.mp hzero)
  have hshift : (guid >>> 8).toNat=guid.toNat >>> 8 := UInt64.toNat_shiftRight guid 8
  rw [hshift,Nat.shiftRight_eq_div_pow]
  exact Nat.div_lt_self hpos (by decide)

/-- The loop of `appendPackGUID`: the bytes from `i` on, with `packGUID[0]` and the bytes behind
it so far. -/
def packLoop (guid : UInt64) (i mark : UInt8) (packed : List UInt8) : List UInt8 :=
  if h : guid≠0 then
    if guid &&& 0xFF≠0 then
      packLoop (guid >>> 8) (i+1) (mark ||| UInt8.ofNat (1 <<< i.toNat))
        (packed++[(guid &&& 0xFF).toUInt8])
    else packLoop (guid >>> 8) (i+1) mark packed
  else mark::packed
termination_by guid.toNat
decreasing_by
  · exact shiftRight_lt h
  · exact shiftRight_lt h

/-- `packGUID` when the loop has ended. -/
def packGUID (guid : UInt64) : List UInt8 := packLoop guid 0 0 []

namespace ByteBuffer

def appendPackGUID (buf : ByteBuffer) (guid : UInt64) : Option ByteBuffer :=
  buf.appendRaw (packGUID guid)

/-- A byte is read, behind the check of the end; it gives what is thrown or the byte,
and the buffer afterwards. -/
def readByte (buf : ByteBuffer) : Except ByteBufferException UInt8×ByteBuffer :=
  if buf.rpos+1 > buf.size then
    (Except.error (ByteBufferException.position false buf.rpos 1 buf.size),buf)
  else
    (Except.ok (buf.storage.getD buf.rpos 0),{ buf with rpos := buf.rpos+1 })

/-- The loop of `readPackGUID` over its indices, with the guid so far. -/
def unpackLoop (guidmark : UInt8) :
    List ℕ → UInt64 → ByteBuffer → Except ByteBufferException UInt64×ByteBuffer
  | [],guid,buf => (Except.ok guid,buf)
  | i::rest,guid,buf =>
    if guidmark &&& UInt8.ofNat (1 <<< i)≠0 then
      match buf.readByte with
      | (Except.error e,buf) => (Except.error e,buf)
      | (Except.ok bit,buf) =>
        unpackLoop guidmark rest (guid ||| bit.toUInt64 <<< UInt64.ofNat (i*8)) buf
    else unpackLoop guidmark rest guid buf

/-- `readPackGUID`: what it throws or the guid, and the buffer afterwards. -/
def readPackGUID (buf : ByteBuffer) : Except ByteBufferException UInt64×ByteBuffer :=
  match buf.readByte with
  | (Except.error e,buf) => (Except.error e,buf)
  | (Except.ok guidmark,buf) => unpackLoop guidmark (List.range 8) 0 buf

/-- The guids of a list are appended. -/
def appendPackGUIDs : ByteBuffer → List UInt64 → Option ByteBuffer
  | buf,[] => some buf
  | buf,guid::guids => do
    let buf←buf.appendPackGUID guid
    buf.appendPackGUIDs guids

/-- A number of guids is read. -/
def readPackGUIDs : ℕ → ByteBuffer → Except ByteBufferException (List UInt64)×ByteBuffer
  | 0,buf => (Except.ok [],buf)
  | n+1,buf =>
    match buf.readPackGUID with
    | (Except.error e,buf) => (Except.error e,buf)
    | (Except.ok guid,buf) =>
      match readPackGUIDs n buf with
      | (Except.error e,buf) => (Except.error e,buf)
      | (Except.ok guids,buf) => (Except.ok (guid::guids),buf)

end ByteBuffer

/-- A byte of a guid, the lowest one first. -/
def guidByte (guid : UInt64) (i : ℕ) : UInt8 := UInt8.ofNat (guid.toNat >>> (8*i))

/-- The bytes of a guid other than zero. -/
def guidBytes (guid : UInt64) : List UInt8 :=
  ((List.range 8).map (guidByte guid)).filter fun byte => byte≠0

/-- The number of the marks. -/
def popcount (guidmark : UInt8) : ℕ := (List.range 8).countP fun i => guidmark.toNat.testBit i

/-- The mark says which bytes of the guid are not zero. -/
def Marks (guid : UInt64) (guidmark : UInt8) : Prop :=
  ∀ i < 8,guidmark.toNat.testBit i=decide (guidByte guid i≠0)

theorem guidByte_zero (guid : UInt64) : guidByte guid 0=(guid &&& 0xFF).toUInt8 := by
  rw [← UInt8.toNat_inj,guidByte,UInt64.toNat_toUInt8,UInt64.toNat_and,UInt8.toNat_ofNat']
  show guid.toNat >>> 0 % 2^8=(guid.toNat &&& (2^8-1))%2^8
  rw [Nat.and_two_pow_sub_one_eq_mod,Nat.shiftRight_zero,Nat.mod_mod]

theorem guidByte_succ (guid : UInt64) (i : ℕ) : guidByte guid (i+1)=guidByte (guid >>> 8) i := by
  have hshift : (guid >>> 8).toNat=guid.toNat >>> 8 := UInt64.toNat_shiftRight guid 8
  rw [guidByte,guidByte,hshift,← Nat.shiftRight_add]
  congr 2
  omega

theorem low_eq_zero {guid : UInt64} : guid &&& 0xFF=0 ↔ guidByte guid 0=0 := by
  rw [guidByte_zero,← UInt64.toNat_inj,← UInt8.toNat_inj,UInt64.toNat_toUInt8]
  have hlow : (guid &&& 0xFF).toNat < 2^8 := by
    rw [UInt64.toNat_and]
    exact Nat.and_lt_two_pow _ (by decide)
  rw [Nat.mod_eq_of_lt hlow]
  rfl

@[simp] theorem guidByte_of_zero (i : ℕ) : guidByte 0 i=0 := by
  rw [guidByte,show (0 : UInt64).toNat=0 from rfl,Nat.zero_shiftRight]
  rfl

theorem testBit_mark {mark i : UInt8} (hi : i.toNat < 8) (j : ℕ) :
    (mark ||| UInt8.ofNat (1 <<< i.toNat)).toNat.testBit j=
      (mark.toNat.testBit j || decide (i.toNat=j)) := by
  have hlt : 1 <<< i.toNat < 2^8 := by
    rw [Nat.one_shiftLeft]
    exact Nat.pow_lt_pow_right (by decide) hi
  rw [UInt8.toNat_or,Nat.testBit_or,UInt8.toNat_ofNat',Nat.mod_eq_of_lt hlt,Nat.one_shiftLeft,
    Nat.testBit_two_pow]

/-- The bytes that are not zero, from the one that the loop has come to. -/
def restBytes (guid : UInt64) (left : ℕ) : List UInt8 :=
  ((List.range left).map (guidByte guid)).filter fun byte => byte≠0

theorem restBytes_succ (guid : UInt64) (left : ℕ) :
    restBytes guid (left+1)=
      (if guidByte guid 0=0 then [] else [guidByte guid 0])++restBytes (guid >>> 8) left := by
  have hmap : (List.range (left+1)).map (guidByte guid)=
      guidByte guid 0::(List.range left).map (guidByte (guid >>> 8)) := by
    rw [List.range_succ_eq_map,List.map_cons,List.map_map]
    congr 1
    exact List.map_congr_left fun i _ => guidByte_succ guid i
  rw [restBytes,hmap,restBytes]
  by_cases hzero : guidByte guid 0=0
  · rw [if_pos hzero,List.filter_cons_of_neg (by simpa using hzero),List.nil_append]
  · rw [if_neg hzero,List.filter_cons_of_pos (by simpa using hzero),List.singleton_append]

theorem restBytes_of_zero (left : ℕ) : restBytes 0 left=[] := by
  rw [restBytes,List.filter_eq_nil_iff]
  intro byte hbyte
  obtain ⟨i,-,rfl⟩ := List.mem_map.mp hbyte
  simp

/-- The loop makes the rest of the bytes and their marks. -/
def Packs (guid : UInt64) (i mark : UInt8) (packed : List UInt8) (left : ℕ) : Prop :=
  ∃ mark',packLoop guid i mark packed=mark'::(packed++restBytes guid left) ∧
    ∀ j < 8,mark'.toNat.testBit j=
      (mark.toNat.testBit j || (decide (i.toNat ≤ j) && decide (guidByte guid (j-i.toNat)≠0)))

theorem packs_zero (i mark : UInt8) (packed : List UInt8) (left : ℕ) :
    Packs 0 i mark packed left := by
  refine ⟨mark,?_,fun j _ => ?_⟩
  · rw [packLoop,dif_neg (not_not.mpr rfl),restBytes_of_zero,List.append_nil]
  · rw [guidByte_of_zero,decide_eq_false (not_not.mpr rfl),Bool.and_false,Bool.or_false]

/-- What the loop makes of the bytes that are left; by induction on their number. -/
theorem packs {left : ℕ} {guid : UInt64} {i : UInt8} (hi : i.toNat+left=8)
    (hguid : guid.toNat < 2^(8*left)) (mark : UInt8) (packed : List UInt8) :
    Packs guid i mark packed left := by
  induction left generalizing guid i mark packed with
  | zero =>
    rw [Nat.mul_zero,pow_zero,Nat.lt_one_iff] at hguid
    rw [show guid=0 from UInt64.toNat_inj.mp hguid]
    exact packs_zero i mark packed 0
  | succ left ih =>
    by_cases hzero : guid=0
    · rw [hzero]
      exact packs_zero i mark packed (left+1)
    have hnext : (i+1).toNat=i.toNat+1 := by
      rw [UInt8.toNat_add]
      exact Nat.mod_eq_of_lt (by rw [UInt8.toNat_one]; omega)
    have hshift : (guid >>> 8).toNat < 2^(8*left) := by
      have hdiv : (guid >>> 8).toNat=guid.toNat >>> 8 := UInt64.toNat_shiftRight guid 8
      rw [hdiv,Nat.shiftRight_eq_div_pow,Nat.div_lt_iff_lt_mul (by decide),← pow_add]
      exact hguid
    have hrest := fun mark packed => @ih (guid >>> 8) (i+1) (by omega) hshift mark packed
    -- a later byte is one of the rest
    have hlater : ∀ j,i.toNat < j →
        guidByte guid (j-i.toNat)=guidByte (guid >>> 8) (j-(i+1).toNat) := by
      intro j hj
      rw [← guidByte_succ,hnext]
      congr 1
      omega
    unfold Packs
    rw [packLoop,dif_pos hzero,restBytes_succ]
    by_cases hlow : guid &&& 0xFF=0
    · rw [if_neg (not_not.mpr hlow),if_pos (low_eq_zero.mp hlow),List.nil_append]
      obtain ⟨mark',heq,hmark⟩ := hrest mark packed
      refine ⟨mark',heq,fun j hj => ?_⟩
      rw [hmark j hj]
      rcases lt_trichotomy i.toNat j with hij | rfl | hij
      · rw [hlater j hij,decide_eq_true hij.le,hnext,decide_eq_true (Nat.succ_le_of_lt hij)]
      · rw [hnext,Nat.sub_self,low_eq_zero.mp hlow]
        simp
      · have hle : ¬i.toNat ≤ j := by omega
        have hlt : ¬i.toNat+1 ≤ j := by omega
        rw [hnext,decide_eq_false hle,decide_eq_false hlt,Bool.false_and,Bool.false_and]
    · rw [if_pos hlow,if_neg (mt low_eq_zero.mpr hlow),← guidByte_zero]
      obtain ⟨mark',heq,hmark⟩ := hrest (mark ||| UInt8.ofNat (1 <<< i.toNat))
        (packed++[guidByte guid 0])
      refine ⟨mark',by rw [heq,List.append_assoc],fun j hj => ?_⟩
      rw [hmark j hj,testBit_mark (by omega)]
      rcases lt_trichotomy i.toNat j with hij | rfl | hij
      · rw [hlater j hij,decide_eq_true hij.le,hnext,decide_eq_true (Nat.succ_le_of_lt hij),
          decide_eq_false hij.ne,Bool.or_false]
      · rw [hnext,Nat.sub_self,decide_eq_true (mt low_eq_zero.mpr hlow)]
        simp
      have hle : ¬i.toNat ≤ j := by omega
      have hlt : ¬i.toNat+1 ≤ j := by omega
      rw [hnext,decide_eq_false hle,decide_eq_false hlt,decide_eq_false hij.ne',Bool.false_and,
        Bool.false_and,Bool.or_false,Bool.or_false]

theorem packGUID_eq (guid : UInt64) :
    ∃ mark,packGUID guid=mark::guidBytes guid ∧ Marks guid mark := by
  obtain ⟨mark,heq,hmark⟩ := @packs 8 guid 0 rfl guid.toNat_lt 0 []
  refine ⟨mark,heq,fun j hj => ?_⟩
  rw [hmark j hj]
  simp

theorem packGUID_ne_nil (guid : UInt64) : packGUID guid≠[] := by
  obtain ⟨mark,heq,-⟩ := packGUID_eq guid
  rw [heq]
  exact List.cons_ne_nil _ _

theorem length_packGUID (guid : UInt64) : (packGUID guid).length ≤ 9 := by
  obtain ⟨mark,heq,-⟩ := packGUID_eq guid
  have hbytes : (guidBytes guid).length ≤ ((List.range 8).map (guidByte guid)).length :=
    List.length_filter_le _ _
  rw [List.length_map,List.length_range] at hbytes
  rw [heq,List.length_cons]
  omega

theorem and_mark_ne_zero {guidmark : UInt8} {i : ℕ} (hi : i < 8) :
    guidmark &&& UInt8.ofNat (1 <<< i)≠0 ↔ guidmark.toNat.testBit i=true := by
  have hlt : 1 <<< i < 2^8 := by
    rw [Nat.one_shiftLeft]
    exact Nat.pow_lt_pow_right (by decide) hi
  rw [ne_eq,← UInt8.toNat_inj,UInt8.toNat_and,UInt8.toNat_ofNat',Nat.mod_eq_of_lt hlt,
    Nat.one_shiftLeft,Nat.and_two_pow]
  cases guidmark.toNat.testBit i with
  | false => simp
  | true => simp

theorem testBit_guidByte (guid : UInt64) (i : ℕ) {j : ℕ} (hj : j < 8) :
    (guidByte guid i).toNat.testBit j=guid.toNat.testBit (8*i+j) := by
  rw [guidByte,UInt8.toNat_ofNat',Nat.testBit_mod_two_pow,decide_eq_true hj,Bool.true_and,
    Nat.testBit_shiftRight]

/-- A byte is put in its place. -/
def putByte (guid so : UInt64) (i : ℕ) : UInt64 :=
  so ||| (guidByte guid i).toUInt64 <<< UInt64.ofNat (i*8)

theorem testBit_putByte (guid so : UInt64) {i k : ℕ} (hi : i < 8) (hk : k < 64) :
    (putByte guid so i).toNat.testBit k=
      (so.toNat.testBit k || (decide (k/8=i) && guid.toNat.testBit k)) := by
  have hplace : (UInt64.ofNat (i*8)).toNat%64=i*8 := by
    rw [UInt64.toNat_ofNat']
    omega
  rw [putByte,UInt64.toNat_or,Nat.testBit_or,UInt64.toNat_shiftLeft,hplace,
    Nat.testBit_mod_two_pow,decide_eq_true hk,Bool.true_and,Nat.testBit_shiftLeft,
    UInt8.toNat_toUInt64]
  congr 1
  by_cases hplaced : k/8=i
  · have hj : k-i*8 < 8 := by omega
    rw [decide_eq_true hplaced,decide_eq_true (show i*8 ≤ k by omega),testBit_guidByte _ _ hj,
      show 8*i+(k-i*8)=k by omega]
  · rw [decide_eq_false hplaced,Bool.false_and]
    by_cases hle : i*8 ≤ k
    · have hlarge : (guidByte guid i).toNat < 2^(k-i*8) :=
        lt_of_lt_of_le (guidByte guid i).toNat_lt (Nat.pow_le_pow_right (by decide) (by omega))
      rw [Nat.testBit_lt_two_pow hlarge,Bool.and_false]
    · rw [decide_eq_false hle,Bool.false_and]

theorem testBit_putBytes (guid so : UInt64) {indices : List ℕ} (hindices : ∀ i∈indices,i < 8)
    {k : ℕ} (hk : k < 64) :
    (indices.foldl (putByte guid) so).toNat.testBit k=
      (so.toNat.testBit k || (decide (k/8∈indices) && guid.toNat.testBit k)) := by
  induction indices generalizing so with
  | nil => simp
  | cons i rest ih =>
    rw [List.foldl_cons,ih _ fun j hj => hindices j (List.mem_cons_of_mem i hj),
      testBit_putByte guid so (hindices i List.mem_cons_self) hk]
    by_cases hplace : k/8=i
    · have hmem : k/8∈i::rest := by
        rw [hplace]
        exact List.mem_cons_self
      rw [decide_eq_true hplace,decide_eq_true hmem,Bool.true_and]
      cases guid.toNat.testBit k <;> simp
    · rw [decide_eq_false hplace,Bool.false_and,Bool.or_false]
      simp [hplace]

theorem putBytes_eq (guid : UInt64) : (List.range 8).foldl (putByte guid) 0=guid := by
  rw [← UInt64.toNat_inj]
  refine Nat.eq_of_testBit_eq fun k => ?_
  by_cases hk : k < 64
  · rw [testBit_putBytes guid 0 (fun i hi => List.mem_range.mp hi) hk]
    have hmem : k/8∈List.range 8 := List.mem_range.mpr (by omega)
    rw [decide_eq_true hmem]
    simp
  · have hlarge : ∀ word : UInt64,word.toNat < 2^k := fun word =>
      lt_of_lt_of_le word.toNat_lt (Nat.pow_le_pow_right (by decide) (by omega))
    rw [Nat.testBit_lt_two_pow (hlarge _),Nat.testBit_lt_two_pow (hlarge _)]

namespace ByteBuffer

theorem readByte_eq {buf : ByteBuffer} {byte : UInt8} {rest : List UInt8}
    (h : buf.storage.drop buf.rpos=byte::rest) :
    buf.readByte=(Except.ok byte,{ buf with rpos := buf.rpos+1 }) := by
  have hlength := congrArg List.length h
  rw [List.length_drop,List.length_cons] at hlength
  have hget : buf.storage.getD buf.rpos 0=byte := by
    rw [List.getD_eq_getElem?_getD,← Nat.add_zero buf.rpos,← List.getElem?_drop,h]
    rfl
  rw [readByte,if_neg (by rw [size]; omega),hget]

/-- The loop reads back the bytes of a guid; by induction on the indices that are left. -/
theorem unpackLoop_eq {guid : UInt64} {guidmark : UInt8} (hmarks : Marks guid guidmark)
    {indices : List ℕ} (hindices : ∀ i∈indices,i < 8) {so : UInt64} {buf : ByteBuffer}
    {rest : List UInt8}
    (h : buf.storage.drop buf.rpos=
      ((indices.map (guidByte guid)).filter fun byte => byte≠0)++rest) :
    unpackLoop guidmark indices so buf=(Except.ok (indices.foldl (putByte guid) so),
      { buf with rpos := buf.rpos+
        ((indices.map (guidByte guid)).filter fun byte => byte≠0).length }) := by
  induction indices generalizing so buf with
  | nil => rfl
  | cons i indices ih =>
    have hi := hindices i List.mem_cons_self
    have hothers : ∀ j∈indices,j < 8 := fun j hj => hindices j (List.mem_cons_of_mem i hj)
    have hmark := hmarks i hi
    rw [List.map_cons] at h ⊢
    rw [unpackLoop,List.foldl_cons]
    by_cases hzero : guidByte guid i=0
    · rw [List.filter_cons_of_neg (by simpa using hzero)] at h ⊢
      rw [decide_eq_false (not_not.mpr hzero)] at hmark
      rw [if_neg (mt (and_mark_ne_zero hi).mp (by rw [hmark]; exact Bool.false_ne_true)),
        ih hothers h]
      have hsame : putByte guid so i=so := by
        rw [putByte,hzero]
        simp
      rw [hsame]
    · rw [List.filter_cons_of_pos (by simpa using hzero)] at h ⊢
      rw [decide_eq_true hzero] at hmark
      rw [if_pos ((and_mark_ne_zero hi).mpr hmark),readByte_eq h]
      dsimp only
      have hrest : ({ buf with rpos := buf.rpos+1 } : ByteBuffer).storage.drop (buf.rpos+1)=
          ((indices.map (guidByte guid)).filter fun byte => byte≠0)++rest := by
        rw [← List.drop_drop,h]
        rfl
      rw [ih hothers hrest,List.length_cons]
      congr 2
      dsimp only
      omega

/-- Reading a packed guid gives the guid and ends behind it. -/
theorem readPackGUID_eq {guid : UInt64} {buf : ByteBuffer} {rest : List UInt8}
    (h : buf.storage.drop buf.rpos=packGUID guid++rest) :
    buf.readPackGUID=
      (Except.ok guid,{ buf with rpos := buf.rpos+(packGUID guid).length }) := by
  obtain ⟨guidmark,hpack,hmarks⟩ := packGUID_eq guid
  rw [hpack] at h ⊢
  have hrest : ({ buf with rpos := buf.rpos+1 } : ByteBuffer).storage.drop (buf.rpos+1)=
      guidBytes guid++rest := by
    rw [← List.drop_drop,h]
    rfl
  rw [readPackGUID,readByte_eq h]
  dsimp only
  rw [unpackLoop_eq hmarks (fun i hi => List.mem_range.mp hi) hrest,putBytes_eq,List.length_cons]
  congr 2
  rw [guidBytes]
  dsimp only
  omega

/-- What the loop does with any bytes: the marked ones are read, or the end is met; by induction on
the indices that are left. -/
theorem unpackLoop_safe {guidmark : UInt8} {indices : List ℕ} (hindices : ∀ i∈indices,i < 8)
    (so : UInt64) {buf : ByteBuffer} (hle : buf.rpos ≤ buf.size) :
    (buf.rpos+indices.countP (fun i => guidmark.toNat.testBit i) ≤ buf.size ∧
      ∃ guid,unpackLoop guidmark indices so buf=(Except.ok guid,
        { buf with rpos := buf.rpos+indices.countP fun i => guidmark.toNat.testBit i })) ∨
    (buf.size < buf.rpos+indices.countP (fun i => guidmark.toNat.testBit i) ∧
      unpackLoop guidmark indices so buf=
        (Except.error (ByteBufferException.position false buf.size 1 buf.size),
          { buf with rpos := buf.size })) := by
  induction indices generalizing so buf with
  | nil => exact Or.inl ⟨hle,so,rfl⟩
  | cons i indices ih =>
    have hi := hindices i List.mem_cons_self
    have hothers : ∀ j∈indices,j < 8 := fun j hj => hindices j (List.mem_cons_of_mem i hj)
    rw [unpackLoop]
    cases hbit : guidmark.toNat.testBit i with
    | false =>
      rw [if_neg (mt (and_mark_ne_zero hi).mp (by rw [hbit]; exact Bool.false_ne_true)),
        List.countP_cons_of_neg (by simp [hbit])]
      exact ih hothers so hle
    | true =>
      rw [if_pos ((and_mark_ne_zero hi).mpr hbit),List.countP_cons_of_pos (by simp [hbit])]
      by_cases hend : buf.rpos+1 > buf.size
      · rw [readByte,if_pos hend]
        have heq : buf.rpos=buf.size := by omega
        refine Or.inr ⟨by omega,?_⟩
        dsimp only
        rw [← heq]
      · rw [readByte,if_neg hend]
        have hnext : ({ buf with rpos := buf.rpos+1 } : ByteBuffer).rpos ≤ size buf := by
          dsimp only
          omega
        rcases ih hothers (so ||| (buf.storage.getD buf.rpos 0).toUInt64 <<< UInt64.ofNat (i*8)) hnext
          with ⟨hfits,guid,heq⟩ | ⟨hshort,heq⟩
        · refine Or.inl ⟨?_,guid,?_⟩
          · change buf.rpos+1+_ ≤ buf.size at hfits
            omega
          dsimp only
          rw [heq]
          congr 2
          dsimp only
          omega
        · refine Or.inr ⟨?_,heq⟩
          change buf.size < buf.rpos+1+_ at hshort
          omega

/-- What `readPackGUID` does with any bytes: the mark and the marked bytes are read if they
are there, and otherwise it throws at the end. -/
theorem readPackGUID_safe (buf : ByteBuffer) :
    if buf.rpos < buf.size ∧
        buf.rpos+1+popcount (buf.storage.getD buf.rpos 0) ≤ buf.size then
      ∃ guid,buf.readPackGUID=(Except.ok guid,
        { buf with rpos := buf.rpos+1+popcount (buf.storage.getD buf.rpos 0) })
    else
      ∃ pos ≤ max buf.rpos buf.size,buf.readPackGUID=
        (Except.error (ByteBufferException.position false pos 1 buf.size),{ buf with rpos := pos }) := by
  by_cases hend : buf.rpos+1 > buf.size
  · rw [if_neg (by omega)]
    refine ⟨buf.rpos,le_max_left _ _,?_⟩
    rw [readPackGUID,readByte,if_pos hend]
  · have hnext : ({ buf with rpos := buf.rpos+1 } : ByteBuffer).rpos ≤ size buf := by
      dsimp only
      omega
    have hloop := @unpackLoop_safe (buf.storage.getD buf.rpos 0) (List.range 8)
      (fun i hi => List.mem_range.mp hi) 0 _ hnext
    rw [readPackGUID,readByte,if_neg hend]
    dsimp only
    rcases hloop with ⟨hfits,guid,heq⟩ | ⟨hshort,heq⟩
    · change buf.rpos+1+popcount _ ≤ buf.size at hfits
      rw [if_pos ⟨by omega,hfits⟩]
      exact ⟨guid,heq⟩
    · change buf.size < buf.rpos+1+popcount _ at hshort
      rw [if_neg (by omega)]
      exact ⟨buf.size,le_max_right _ _,heq⟩

/-- What is behind the write position after an append. -/
theorem drop_appendRaw {buf buf' : ByteBuffer} {src : List UInt8}
    (h : buf.appendRaw src=some buf') :
    buf'.storage.drop buf.wpos=src++buf.storage.drop (buf.wpos+src.length) ∧
      buf'.wpos=buf.wpos+src.length := by
  unfold appendRaw at h
  split_ifs at h
  obtain rfl := Option.some.inj h
  refine ⟨?_,rfl⟩
  have hlength : ((buf.storage++List.replicate (buf.wpos+src.length-buf.size) (0 : UInt8)).take
      buf.wpos).length=buf.wpos := by
    rw [List.length_take,List.length_append,List.length_replicate,size]
    omega
  have hpadding : (buf.storage++List.replicate (buf.wpos+src.length-buf.size) (0 : UInt8)).drop
      (buf.wpos+src.length)=buf.storage.drop (buf.wpos+src.length) := by
    rw [List.drop_append,List.drop_replicate,size]
    rw [show buf.wpos+src.length-buf.storage.length-(buf.wpos+src.length-buf.storage.length)=0 by omega]
    exact List.append_nil _
  dsimp only
  rw [hpadding,List.append_assoc,List.drop_append_of_le_length hlength.ge]
  rw [List.drop_eq_nil_of_le hlength.le,List.nil_append]

/-- An append at the end or inside leaves what is before the write position. -/
theorem take_appendRaw {buf buf' : ByteBuffer} {src : List UInt8} (hle : buf.wpos ≤ buf.size)
    (h : buf.appendRaw src=some buf') : buf'.storage.take buf.wpos=buf.storage.take buf.wpos := by
  unfold appendRaw at h
  split_ifs at h
  obtain rfl := Option.some.inj h
  rw [size] at hle
  dsimp only
  rw [List.append_assoc,List.take_append_of_le_length,List.take_append_of_le_length hle,
    List.take_take,Nat.min_self]
  rw [List.take_append_of_le_length hle,List.length_take]
  omega

/-- After an append the write position is not behind the end. -/
theorem wpos_appendRaw {buf buf' : ByteBuffer} {src : List UInt8}
    (h : buf.appendRaw src=some buf') : buf'.wpos ≤ buf'.size := by
  obtain ⟨hdrop,hwpos⟩ := drop_appendRaw h
  have hlength := congrArg List.length hdrop
  rw [List.length_drop,List.length_append] at hlength
  have hsrc : 0 < src.length := by
    unfold appendRaw at h
    split_ifs at h with hnil
    exact List.length_pos_of_ne_nil hnil
  rw [hwpos,size]
  omega

/-- The guids stand behind the write position, one after the other; by induction on the list. -/
theorem drop_appendPackGUIDs {buf buf' : ByteBuffer} {guids : List UInt64}
    (h : buf.appendPackGUIDs guids=some buf') :
    buf'.storage.drop buf.wpos=
        guids.flatMap packGUID++buf.storage.drop (buf.wpos+(guids.flatMap packGUID).length) ∧
      buf'.wpos=buf.wpos+(guids.flatMap packGUID).length ∧
      (buf.wpos ≤ buf.size → buf'.storage.take buf.wpos=buf.storage.take buf.wpos) := by
  induction guids generalizing buf with
  | nil =>
    obtain rfl := Option.some.inj h
    exact ⟨rfl,rfl,fun _ => rfl⟩
  | cons guid guids ih =>
    obtain ⟨next,hnext,hrest⟩ := Option.bind_eq_some_iff.mp h
    obtain ⟨hdrop,hwpos⟩ := drop_appendRaw hnext
    obtain ⟨hdrop',hwpos',htake'⟩ := ih hrest
    have htake := htake' (wpos_appendRaw hnext)
    rw [hwpos] at hdrop' hwpos' htake
    have hcons : (guid::guids).flatMap packGUID=packGUID guid++guids.flatMap packGUID :=
      List.flatMap_cons
    -- the bytes of the guid are still there, and behind the guids those from before
    have hguid : (buf'.storage.take (buf.wpos+(packGUID guid).length)).drop buf.wpos=
        packGUID guid := by
      rw [htake,List.drop_take,hdrop,Nat.add_sub_cancel_left,List.take_left]
    have htail : next.storage.drop
        (buf.wpos+(packGUID guid).length+(guids.flatMap packGUID).length)=
          buf.storage.drop (buf.wpos+(packGUID guid).length+(guids.flatMap packGUID).length) := by
      rw [← List.drop_drop,← List.drop_drop,hdrop,List.drop_left,List.drop_drop]
    refine ⟨?_,?_,fun hle => ?_⟩
    · rw [hcons,List.length_append,← Nat.add_assoc,← htail,List.append_assoc,← hdrop']
      nth_rewrite 1 [← List.take_append_drop (buf.wpos+(packGUID guid).length) buf'.storage]
      rw [List.drop_append_of_le_length,hguid]
      have hlength := congrArg List.length hguid
      rw [List.length_drop] at hlength
      have hpos := List.length_pos_of_ne_nil (packGUID_ne_nil guid)
      omega
    · rw [hwpos',hcons,List.length_append,Nat.add_assoc]
    rw [← take_appendRaw hle hnext]
    have hboth := congrArg (List.take buf.wpos) htake
    rw [List.take_take,List.take_take,Nat.min_eq_left (Nat.le_add_right _ _)] at hboth
    exact hboth

/-- Every guid is appended exactly if the buffer stays below its limit before each of them. -/
theorem isSome_appendPackGUIDs {buf : ByteBuffer} (hend : buf.wpos=buf.size)
    (guids : List UInt64) :
    (buf.appendPackGUIDs guids).isSome=true ↔
      ∀ n < guids.length,buf.size+((guids.take n).flatMap packGUID).length < maxSize := by
  induction guids generalizing buf with
  | nil => exact iff_of_true rfl fun _ hn => absurd hn (Nat.not_lt_zero _)
  | cons guid guids ih =>
    have hne := packGUID_ne_nil guid
    rw [appendPackGUIDs,appendPackGUID]
    by_cases hfits : buf.size < maxSize
    · obtain ⟨next,hnext⟩ : ∃ next,buf.appendRaw (packGUID guid)=some next := by
        rw [appendRaw,if_neg hne,if_pos hfits]
        exact ⟨_,rfl⟩
      obtain ⟨hdrop,hwpos⟩ := drop_appendRaw hnext
      have hlength := congrArg List.length hdrop
      rw [List.length_drop,List.length_append,List.length_drop] at hlength
      have hle := wpos_appendRaw hnext
      have hsize : next.size=buf.size+(packGUID guid).length := by
        rw [hwpos] at hle
        rw [size] at hend hle ⊢
        rw [size]
        omega
      rw [hnext,Option.bind_eq_bind,Option.bind_some,ih (by rw [hwpos,hsize,hend]),hsize]
      constructor
      · intro h n hn
        cases n with
        | zero => exact hfits
        | succ n =>
          rw [List.take_succ_cons,List.flatMap_cons,List.length_append,← Nat.add_assoc]
          exact h n (Nat.lt_of_succ_lt_succ hn)
      · intro h n hn
        have := h (n+1) (Nat.succ_lt_succ hn)
        rw [List.take_succ_cons,List.flatMap_cons,List.length_append,← Nat.add_assoc] at this
        exact this
    · rw [appendRaw,if_neg hne,if_neg hfits]
      exact iff_of_false (by simp) fun h => hfits (h 0 (Nat.succ_pos _))

/-- Reading as many guids as stand there gives them and ends behind them. -/
theorem readPackGUIDs_eq {guids : List UInt64} {buf : ByteBuffer} {rest : List UInt8}
    (h : buf.storage.drop buf.rpos=guids.flatMap packGUID++rest) :
    readPackGUIDs guids.length buf=(Except.ok guids,
      { buf with rpos := buf.rpos+(guids.flatMap packGUID).length }) := by
  induction guids generalizing buf with
  | nil => rfl
  | cons guid guids ih =>
    rw [List.flatMap_cons,List.append_assoc] at h
    have hrest : ({ buf with rpos := buf.rpos+(packGUID guid).length } : ByteBuffer).storage.drop
        (buf.rpos+(packGUID guid).length)=guids.flatMap packGUID++rest := by
      rw [← List.drop_drop,h,List.drop_left]
    rw [List.length_cons,readPackGUIDs,readPackGUID_eq h]
    dsimp only
    rw [ih hrest,List.flatMap_cons,List.length_append,← Nat.add_assoc]

end ByteBuffer

/-- The codec of packed guids. What is appended is read back from where the writing began, and the
reading ends where it ended, which for a buffer written at its end is the end; the appends
are refused only at the limit of the buffer. A guid is a mark and its bytes other than
zero. Over any bytes the reader takes the mark and the marked bytes, or throws at the end. -/
theorem packed_guids (buf : ByteBuffer) (guids : List UInt64) :
    (∀ written,buf.appendPackGUIDs guids=some written →
      ByteBuffer.readPackGUIDs guids.length { written with rpos := buf.wpos }=
          (Except.ok guids,{ written with rpos := written.wpos }) ∧
        (buf.wpos=buf.size → written.wpos=written.size)) ∧
      (buf.wpos=buf.size → ((buf.appendPackGUIDs guids).isSome=true ↔ ∀ n < guids.length,
        buf.size+((guids.take n).flatMap packGUID).length < ByteBuffer.maxSize)) ∧
      (∀ guid,(∃ mark,packGUID guid=mark::guidBytes guid ∧ Marks guid mark) ∧
        (packGUID guid).length ≤ 9) ∧
      if buf.rpos < buf.size ∧
          buf.rpos+1+popcount (buf.storage.getD buf.rpos 0) ≤ buf.size then
        ∃ guid,buf.readPackGUID=(Except.ok guid,
          { buf with rpos := buf.rpos+1+popcount (buf.storage.getD buf.rpos 0) })
      else
        ∃ pos ≤ max buf.rpos buf.size,buf.readPackGUID=
          (Except.error (ByteBufferException.position false pos 1 buf.size),
            { buf with rpos := pos }) := by
  refine ⟨fun written hwritten => ⟨?_,fun hend => ?_⟩,fun hend =>
    ByteBuffer.isSome_appendPackGUIDs hend guids,
    fun guid => ⟨packGUID_eq guid,length_packGUID guid⟩,buf.readPackGUID_safe⟩
  · obtain ⟨hdrop,hwpos,-⟩ := ByteBuffer.drop_appendPackGUIDs hwritten
    rw [@ByteBuffer.readPackGUIDs_eq guids { written with rpos := buf.wpos } _ hdrop,hwpos]
  obtain ⟨hdrop,hwpos,htake⟩ := ByteBuffer.drop_appendPackGUIDs hwritten
  have hlength := congrArg List.length hdrop
  have hbefore := congrArg List.length (htake hend.le)
  rw [List.length_drop,List.length_append,List.length_drop] at hlength
  rw [List.length_take,List.length_take] at hbefore
  rw [ByteBuffer.size] at hend
  rw [hwpos,ByteBuffer.size]
  omega

end Projectnelth.ByteBufferModel
