import Mathlib

/-!
# UTF-8 and UTF-16

Code points as octets and as units of sixteen bits. What is written of code points is read back, and
whatever octets are read were written so. Malformed octets or units are an exception.
-/

namespace Projectnelth.Utf8Codec

/-! ## Octets -/

def is_surrogate (cp : ℕ) : Bool := 0xd800 ≤ cp && cp ≤ 0xdfff

def is_code_point_valid (cp : ℕ) : Bool := cp ≤ 0x10ffff && !is_surrogate cp

def is_trail (oc : UInt8) : Bool := oc.toNat/64=2

def sequence_length (lead : UInt8) : ℕ :=
  if lead.toNat < 0x80 then 1
  else if lead.toNat/32=0x6 then 2
  else if lead.toNat/16=0xe then 3
  else if lead.toNat/8=0x1e then 4
  else 0

def is_overlong_sequence (cp length : ℕ) : Bool :=
  if cp < 0x80 then length≠1
  else if cp < 0x800 then length≠2
  else if cp < 0x10000 then length≠3
  else false

/-- The checks of `validate_next` once a sequence was decoded. -/
def checked (cp length : ℕ) (rest : List UInt8) : Option (ℕ×List UInt8) :=
  if is_code_point_valid cp && !is_overlong_sequence cp length then some (cp,rest) else none

/-- `next`, which throws where there is no code point. The parts of a sequence have no bit in
common, so that they are added. -/
def next : List UInt8 → Option (ℕ×List UInt8)
  | [] => none
  | lead::rest =>
    match sequence_length lead,rest with
    | 1,rest => checked lead.toNat 1 rest
    | 2,b::rest =>
      if is_trail b then checked (lead.toNat*2^6%2^11+b.toNat%2^6) 2 rest else none
    | 3,b::c::rest =>
      if is_trail b && is_trail c then
        checked (lead.toNat*2^12%2^16+b.toNat*2^6%2^12+c.toNat%2^6) 3 rest
      else none
    | 4,b::c::d::rest =>
      if is_trail b && is_trail c && is_trail d then
        checked (lead.toNat*2^18%2^21+b.toNat*2^12%2^18+c.toNat*2^6%2^12+d.toNat%2^6) 4 rest
      else none
    | _,_ => none

/-- The octets that `append` writes of a valid code point. -/
def octets (cp : ℕ) : List UInt8 :=
  if cp < 0x80 then [UInt8.ofNat cp]
  else if cp < 0x800 then [UInt8.ofNat (cp/2^6+0xc0),UInt8.ofNat (cp%2^6+0x80)]
  else if cp < 0x10000 then
    [UInt8.ofNat (cp/2^12+0xe0),UInt8.ofNat (cp/2^6%2^6+0x80),UInt8.ofNat (cp%2^6+0x80)]
  else
    [UInt8.ofNat (cp/2^18+0xf0),UInt8.ofNat (cp/2^12%2^6+0x80),UInt8.ofNat (cp/2^6%2^6+0x80),
      UInt8.ofNat (cp%2^6+0x80)]

/-- `append`, which throws where the code point is not valid. -/
def append (cp : ℕ) : Option (List UInt8) :=
  if is_code_point_valid cp then some (octets cp) else none

theorem octets_ne_nil (cp : ℕ) : octets cp≠[] := by
  unfold octets
  split_ifs <;> exact List.cons_ne_nil _ _

theorem toNat_octet {n : ℕ} (h : n < 256) : (UInt8.ofNat n).toNat=n := by
  rw [UInt8.toNat_ofNat']
  exact Nat.mod_eq_of_lt h

theorem is_trail_octet {n : ℕ} (h : n < 64) : is_trail (UInt8.ofNat (n+0x80))=true := by
  rw [is_trail,toNat_octet (by omega),decide_eq_true_eq]
  omega

/-- The low bits of an octet behind the lead. -/
theorem trail_bits {n : ℕ} (h : n < 64) (k : ℕ) :
    (UInt8.ofNat (n+0x80)).toNat*2^k%2^(k+6)=n*2^k := by
  have hsplit : (n+0x80)*2^k=n*2^k+2*2^(k+6) := by
    rw [Nat.pow_add]
    ring
  have hlt : n*2^k < 2^(k+6) := by
    rw [Nat.pow_add,Nat.mul_comm]
    exact Nat.mul_lt_mul_of_pos_left h (Nat.two_pow_pos k)
  rw [toNat_octet (by omega),hsplit,Nat.add_mul_mod_self_right,Nat.mod_eq_of_lt hlt]

/-- What is written of a code point is read back. -/
theorem next_octets {cp : ℕ} (h : is_code_point_valid cp) (rest : List UInt8) :
    next (octets cp++rest)=some (cp,rest) := by
  have hmax : cp ≤ 0x10ffff := by
    simp only [is_code_point_valid,Bool.and_eq_true,decide_eq_true_eq] at h
    exact h.1
  have hlow : cp%2^6 < 64 := by omega
  have hmiddle : cp/2^6%2^6 < 64 := by omega
  have hsecond : cp/2^12%2^6 < 64 := by omega
  have hbits := trail_bits hlow 0
  rw [Nat.pow_zero,Nat.mul_one,Nat.mul_one] at hbits
  unfold octets
  by_cases h1 : cp < 0x80
  · have hlead : (UInt8.ofNat cp).toNat=cp := toNat_octet (by omega)
    have hlength : sequence_length (UInt8.ofNat cp)=1 := by
      rw [sequence_length,hlead,if_pos h1]
    rw [if_pos h1]
    simp only [List.cons_append,List.nil_append,next,hlength,checked,hlead,h,
      is_overlong_sequence,h1,if_true]
    rfl
  by_cases h2 : cp < 0x800
  · have hlead : (UInt8.ofNat (cp/2^6+0xc0)).toNat=cp/2^6+0xc0 := toNat_octet (by omega)
    have hlength : sequence_length (UInt8.ofNat (cp/2^6+0xc0))=2 := by
      rw [sequence_length,hlead,if_neg (by omega),if_pos (by omega)]
    have hcp : (cp/2^6+0xc0)*2^6%2^11+cp%2^6=cp := by omega
    rw [if_neg h1,if_pos h2]
    simp only [List.cons_append,List.nil_append,next,hlength,is_trail_octet hlow,if_true,hlead,
      hbits,hcp,checked,h,is_overlong_sequence,h1,h2,if_false]
    rfl
  by_cases h3 : cp < 0x10000
  · have hlead : (UInt8.ofNat (cp/2^12+0xe0)).toNat=cp/2^12+0xe0 := toNat_octet (by omega)
    have hlength : sequence_length (UInt8.ofNat (cp/2^12+0xe0))=3 := by
      rw [sequence_length,hlead,if_neg (by omega),if_neg (by omega),if_pos (by omega)]
    have hcp : (cp/2^12+0xe0)*2^12%2^16+cp/2^6%2^6*2^6+cp%2^6=cp := by omega
    rw [if_neg h1,if_neg h2,if_pos h3]
    simp only [List.cons_append,List.nil_append,next,hlength,is_trail_octet hlow,
      is_trail_octet hmiddle,Bool.and_self,if_true,hlead,trail_bits hmiddle 6,hbits,hcp,checked,
      h,is_overlong_sequence,h1,h2,h3,if_false]
    rfl
  · have hlead : (UInt8.ofNat (cp/2^18+0xf0)).toNat=cp/2^18+0xf0 := toNat_octet (by omega)
    have hlength : sequence_length (UInt8.ofNat (cp/2^18+0xf0))=4 := by
      rw [sequence_length,hlead,if_neg (by omega),if_neg (by omega),if_neg (by omega),
        if_pos (by omega)]
    have hcp : (cp/2^18+0xf0)*2^18%2^21+cp/2^12%2^6*2^12+cp/2^6%2^6*2^6+cp%2^6=cp := by
      omega
    rw [if_neg h1,if_neg h2,if_neg h3]
    simp only [List.cons_append,List.nil_append,next,hlength,is_trail_octet hlow,
      is_trail_octet hmiddle,is_trail_octet hsecond,Bool.and_self,if_true,hlead,
      trail_bits hmiddle 6,trail_bits hsecond 12,hbits,hcp,checked,h,is_overlong_sequence,h1,h2,
      h3,if_false]
    rfl

/-- What `checked` lets pass. -/
theorem checked_eq {cp length : ℕ} {rest : List UInt8} {r : ℕ×List UInt8}
    (h : checked cp length rest=some r) :
    r=(cp,rest) ∧ is_code_point_valid cp ∧ is_overlong_sequence cp length=false := by
  unfold checked at h
  by_cases hpass : (is_code_point_valid cp && !is_overlong_sequence cp length)=true
  · rw [if_pos hpass] at h
    injection h with h
    rw [Bool.and_eq_true,Bool.not_eq_true'] at hpass
    exact ⟨h.symm,hpass.1,hpass.2⟩
  · rw [if_neg hpass] at h
    cases h

theorem octet_eq (oc : UInt8) {n : ℕ} (h : oc.toNat=n) : oc=UInt8.ofNat n := by
  rw [← h,UInt8.ofNat_toNat]

/-- The length of a sequence that is not too long for its code point. -/
theorem not_overlong {cp length : ℕ} (h : is_overlong_sequence cp length=false) :
    (cp < 0x80 → length=1) ∧ (0x80 ≤ cp → cp < 0x800 → length=2) ∧
      (0x800 ≤ cp → cp < 0x10000 → length=3) := by
  unfold is_overlong_sequence at h
  split_ifs at h with h1 h2 h3
  · rw [decide_eq_false_iff_not,not_not] at h
    omega
  · rw [decide_eq_false_iff_not,not_not] at h
    omega
  · rw [decide_eq_false_iff_not,not_not] at h
    omega
  · omega

theorem octets_two {lead b : UInt8} (hlead : lead.toNat/32=0x6) (hb : is_trail b=true)
    (hlong : is_overlong_sequence (lead.toNat*2^6%2^11+b.toNat%2^6) 2=false) :
    octets (lead.toNat*2^6%2^11+b.toNat%2^6)=[lead,b] := by
  have hbounds := not_overlong hlong
  rw [is_trail,decide_eq_true_eq] at hb
  have hl := lead.toNat_lt
  rw [octets,if_neg (by omega),if_pos (by omega),← octet_eq lead (by omega),
    ← octet_eq b (by omega)]

theorem octets_three {lead b c : UInt8} (hlead : lead.toNat/16=0xe) (hb : is_trail b=true)
    (hc : is_trail c=true)
    (hlong : is_overlong_sequence
      (lead.toNat*2^12%2^16+b.toNat*2^6%2^12+c.toNat%2^6) 3=false) :
    octets (lead.toNat*2^12%2^16+b.toNat*2^6%2^12+c.toNat%2^6)=[lead,b,c] := by
  have hbounds := not_overlong hlong
  rw [is_trail,decide_eq_true_eq] at hb hc
  have hl := lead.toNat_lt
  rw [octets,if_neg (by omega),if_neg (by omega),if_pos (by omega),
    ← octet_eq lead (by omega),← octet_eq b (by omega),
    ← octet_eq c (by omega)]

theorem octets_four {lead b c d : UInt8} (hlead : lead.toNat/8=0x1e) (hb : is_trail b=true)
    (hc : is_trail c=true) (hd : is_trail d=true)
    (hlong : is_overlong_sequence
      (lead.toNat*2^18%2^21+b.toNat*2^12%2^18+c.toNat*2^6%2^12+d.toNat%2^6) 4=false) :
    octets (lead.toNat*2^18%2^21+b.toNat*2^12%2^18+c.toNat*2^6%2^12+d.toNat%2^6)=
      [lead,b,c,d] := by
  have hbounds := not_overlong hlong
  rw [is_trail,decide_eq_true_eq] at hb hc hd
  have hl := lead.toNat_lt
  rw [octets,if_neg (by omega),if_neg (by omega),if_neg (by omega),
    ← octet_eq lead (by omega),← octet_eq b (by omega),
    ← octet_eq c (by omega),← octet_eq d (by omega)]

/-- Whatever is read was written of a code point. -/
theorem next_eq_some {bytes rest : List UInt8} {cp : ℕ} (h : next bytes=some (cp,rest)) :
    is_code_point_valid cp ∧ bytes=octets cp++rest := by
  cases bytes with
  | nil => cases h
  | cons lead bytes =>
      unfold next at h
      by_cases h1 : lead.toNat < 0x80
      · have hlength : sequence_length lead=1 := by rw [sequence_length,if_pos h1]
        simp only [hlength] at h
        obtain ⟨hr,hvalid,_⟩ := checked_eq h
        injection hr with hcp hrest
        rw [hcp,hrest]
        refine ⟨hvalid,?_⟩
        rw [octets,if_pos h1,UInt8.ofNat_toNat]
        rfl
      by_cases h2 : lead.toNat/32=0x6
      · have hlength : sequence_length lead=2 := by
          rw [sequence_length,if_neg h1,if_pos h2]
        simp only [hlength] at h
        match bytes,h with
        | b::bytes,h =>
            simp only [Option.ite_none_right_eq_some] at h
            obtain ⟨hr,hvalid,hlong⟩ := checked_eq h.2
            injection hr with hcp hrest
            rw [hcp,hrest]
            exact ⟨hvalid,by rw [octets_two h2 h.1 hlong]; rfl⟩
      by_cases h3 : lead.toNat/16=0xe
      · have hlength : sequence_length lead=3 := by
          rw [sequence_length,if_neg h1,if_neg h2,if_pos h3]
        simp only [hlength] at h
        match bytes,h with
        | b::c::bytes,h =>
            simp only [Option.ite_none_right_eq_some,Bool.and_eq_true] at h
            obtain ⟨hr,hvalid,hlong⟩ := checked_eq h.2
            injection hr with hcp hrest
            rw [hcp,hrest]
            exact ⟨hvalid,by rw [octets_three h3 h.1.1 h.1.2 hlong]; rfl⟩
      by_cases h4 : lead.toNat/8=0x1e
      · have hlength : sequence_length lead=4 := by
          rw [sequence_length,if_neg h1,if_neg h2,if_neg h3,if_pos h4]
        simp only [hlength] at h
        match bytes,h with
        | b::c::d::bytes,h =>
            simp only [Option.ite_none_right_eq_some,Bool.and_eq_true] at h
            obtain ⟨hr,hvalid,hlong⟩ := checked_eq h.2
            injection hr with hcp hrest
            rw [hcp,hrest]
            exact ⟨hvalid,by rw [octets_four h4 h.1.1.1 h.1.1.2 h.1.2 hlong]; rfl⟩
      · have hlength : sequence_length lead=0 := by
          rw [sequence_length,if_neg h1,if_neg h2,if_neg h3,if_neg h4]
        simp only [hlength] at h
        cases h

/-! ## Strings of octets -/

/-- The code points that `next` reads one after the other, in so many steps at most. -/
def nexts : ℕ → List UInt8 → Option (List ℕ)
  | _,[] => some []
  | 0,_::_ => none
  | fuel+1,lead::bytes =>
    (next (lead::bytes)).bind fun r => (nexts fuel r.2).map fun cps => r.1::cps

/-- The code points of a string; none where `next` throws. -/
def codePoints (bytes : List UInt8) : Option (List ℕ) := nexts bytes.length bytes

def distance (bytes : List UInt8) : Option ℕ := (codePoints bytes).map List.length

/-- The octets of code points. -/
def encode (cps : List ℕ) : List UInt8 := cps.flatMap octets

theorem encode_cons (cp : ℕ) (cps : List ℕ) : encode (cp::cps)=octets cp++encode cps :=
  List.flatMap_cons

theorem encode_append (first last : List ℕ) : encode (first++last)=encode first++encode last :=
  List.flatMap_append

theorem nexts_encode {cps : List ℕ} (h : ∀ cp∈cps,is_code_point_valid cp) (fuel : ℕ)
    (hfuel : cps.length ≤ fuel) : nexts fuel (encode cps)=some cps := by
  induction cps generalizing fuel with
  | nil =>
      cases fuel <;> rfl
  | cons cp cps ih =>
      rw [List.length_cons] at hfuel
      cases fuel with
      | zero => omega
      | succ fuel =>
          have hnext := next_octets (h cp List.mem_cons_self) (encode cps)
          have hrest := ih (fun d hd => h d (List.mem_cons_of_mem cp hd)) fuel (by omega)
          rw [encode_cons]
          cases hbytes : octets cp++encode cps with
          | nil => exact absurd (List.append_eq_nil_iff.mp hbytes).1 (octets_ne_nil cp)
          | cons lead bytes =>
              rw [hbytes] at hnext
              rw [nexts,hnext,Option.bind_some,hrest]
              rfl

theorem nexts_eq_some {fuel : ℕ} {bytes : List UInt8} {cps : List ℕ}
    (h : nexts fuel bytes=some cps) :
    (∀ cp∈cps,is_code_point_valid cp) ∧ bytes=encode cps := by
  induction fuel generalizing bytes cps with
  | zero =>
      cases bytes with
      | nil =>
          injection h with h
          rw [← h]
          exact ⟨fun cp hcp => absurd hcp List.not_mem_nil,rfl⟩
      | cons lead bytes => cases h
  | succ fuel ih =>
      cases bytes with
      | nil =>
          injection h with h
          rw [← h]
          exact ⟨fun cp hcp => absurd hcp List.not_mem_nil,rfl⟩
      | cons lead bytes =>
          rw [nexts] at h
          obtain ⟨⟨cp,rest⟩,hnext,hmap⟩ := Option.bind_eq_some_iff.mp h
          obtain ⟨tail,htail,hcps⟩ := Option.map_eq_some_iff.mp hmap
          obtain ⟨hvalid,hbytes⟩ := next_eq_some hnext
          obtain ⟨hall,hrest⟩ := ih htail
          dsimp only at hcps hrest
          rw [← hcps,hbytes,encode_cons,← hrest]
          refine ⟨?_,rfl⟩
          intro d hd
          rcases List.mem_cons.mp hd with heq | hmem
          · rw [heq]
            exact hvalid
          · exact hall d hmem

theorem length_le_encode (cps : List ℕ) : cps.length ≤ (encode cps).length := by
  induction cps with
  | nil => exact Nat.le_refl 0
  | cons cp cps ih =>
      have hpos := List.length_pos_iff.mpr (octets_ne_nil cp)
      rw [encode_cons,List.length_cons,List.length_append]
      omega

/-- The code points of a string are those that it was written of. -/
theorem codePoints_eq_some {bytes : List UInt8} {cps : List ℕ} :
    codePoints bytes=some cps ↔ (∀ cp∈cps,is_code_point_valid cp) ∧ bytes=encode cps := by
  constructor
  · exact nexts_eq_some
  · rintro ⟨hvalid,hbytes⟩
    rw [codePoints,hbytes]
    exact nexts_encode hvalid _ (length_le_encode cps)

/-- A well-formed start of a well-formed string is one of its code points. -/
theorem prefix_of_encode {first cps : List ℕ} (hfirst : ∀ cp∈first,is_code_point_valid cp)
    (hcps : ∀ cp∈cps,is_code_point_valid cp) (h : encode first<+:encode cps) :
    first<+:cps := by
  induction first generalizing cps with
  | nil => exact List.nil_prefix
  | cons cp first ih =>
      obtain ⟨tail,htail⟩ := h
      rw [encode_cons,List.append_assoc] at htail
      cases cps with
      | nil =>
          exact absurd (List.append_eq_nil_iff.mp htail).1 (octets_ne_nil cp)
      | cons d cps =>
          rw [encode_cons] at htail
          have hread := next_octets (hfirst cp List.mem_cons_self) (encode first++tail)
          rw [htail,next_octets (hcps d List.mem_cons_self)] at hread
          injection hread with hread
          injection hread with hhead hrest
          rw [hhead,List.cons_prefix_cons]
          refine ⟨rfl,ih (fun e he => hfirst e (List.mem_cons_of_mem cp he))
            (fun e he => hcps e (List.mem_cons_of_mem d he)) ⟨tail,hrest.symm⟩⟩

/-! ## Strings of units -/

def LEAD_OFFSET : ℕ := 0xd7c0

/-- `SURROGATE_OFFSET`, as a number of 32 bits. -/
def SURROGATE_OFFSET : ℕ := 2^32+0x10000-0xd800*2^10-0xdc00

/-- The units that `utf8to16` writes of a code point. -/
def units (cp : ℕ) : List ℕ :=
  if 0xffff < cp then [(cp/2^10+LEAD_OFFSET)%2^16,(cp%2^10+0xdc00)%2^16] else [cp%2^16]

/-- The units of code points. -/
def encode16 (cps : List ℕ) : List ℕ := cps.flatMap units

def utf8to16 (bytes : List UInt8) : Option (List ℕ) := (codePoints bytes).map encode16

def is_lead_surrogate (cp : ℕ) : Bool := 0xd800 ≤ cp && cp ≤ 0xdbff

def is_trail_surrogate (cp : ℕ) : Bool := 0xdc00 ≤ cp && cp ≤ 0xdfff

/-- `utf16to8`, which throws at a surrogate that stands alone. -/
def utf16to8 : List ℕ → Option (List UInt8)
  | [] => some []
  | unit::wstr =>
    let cp := unit%2^16
    if is_lead_surrogate cp then
      match wstr with
      | [] => none
      | trail::wstr =>
        if is_trail_surrogate (trail%2^16) then
          (append ((cp*2^10+trail%2^16+SURROGATE_OFFSET)%2^32)).bind fun first =>
            (utf16to8 wstr).map fun last => first++last
        else none
    else if is_trail_surrogate cp then none
    else (append cp).bind fun first => (utf16to8 wstr).map fun last => first++last

theorem utf16to8_alone {unit : ℕ} (hlead : is_lead_surrogate (unit%2^16)=false)
    (htrail : is_trail_surrogate (unit%2^16)=false) (wstr : List ℕ) :
    utf16to8 (unit::wstr)=(append (unit%2^16)).bind fun first =>
      (utf16to8 wstr).map fun last => first++last := by
  rw [utf16to8.eq_def]
  simp only [hlead,htrail,Bool.false_eq_true,if_false]

theorem encode16_cons (cp : ℕ) (cps : List ℕ) : encode16 (cp::cps)=units cp++encode16 cps :=
  List.flatMap_cons

theorem utf16to8_units {cp : ℕ} (h : is_code_point_valid cp) (wstr : List ℕ) :
    utf16to8 (units cp++wstr)=(utf16to8 wstr).map fun last => octets cp++last := by
  have hbounds := h
  simp only [is_code_point_valid,is_surrogate,Bool.and_eq_true,Bool.not_eq_true',
    Bool.and_eq_false_iff,decide_eq_true_eq,decide_eq_false_iff_not] at hbounds
  unfold units
  by_cases hpair : 0xffff < cp
  · have hlead : (cp/2^10+LEAD_OFFSET)%2^16%2^16=cp/2^10+0xd7c0 := by
      unfold LEAD_OFFSET
      omega
    have htrail : (cp%2^10+0xdc00)%2^16%2^16=cp%2^10+0xdc00 := by omega
    have hisLead : is_lead_surrogate (cp/2^10+0xd7c0)=true := by
      simp only [is_lead_surrogate,Bool.and_eq_true,decide_eq_true_eq]
      omega
    have hisTrail : is_trail_surrogate (cp%2^10+0xdc00)=true := by
      simp only [is_trail_surrogate,Bool.and_eq_true,decide_eq_true_eq]
      omega
    have hsum : ((cp/2^10+0xd7c0)*2^10+(cp%2^10+0xdc00)+SURROGATE_OFFSET)%2^32=cp := by
      unfold SURROGATE_OFFSET
      omega
    rw [if_pos hpair]
    simp only [List.cons_append,List.nil_append,utf16to8,hlead,htrail,hisLead,hisTrail,if_true,
      hsum,append,h,Option.bind_some]
  · have hunit : cp%2^16%2^16=cp := by omega
    have hnotLead : is_lead_surrogate cp=false := by
      simp only [is_lead_surrogate,Bool.and_eq_false_iff,decide_eq_false_iff_not]
      omega
    have hnotTrail : is_trail_surrogate cp=false := by
      simp only [is_trail_surrogate,Bool.and_eq_false_iff,decide_eq_false_iff_not]
      omega
    rw [if_neg hpair,List.singleton_append,utf16to8_alone (by rw [hunit]; exact hnotLead)
      (by rw [hunit]; exact hnotTrail),hunit,append,if_pos h,Option.bind_some]

/-- The units of code points are read as these. -/
theorem utf16to8_encode16 {cps : List ℕ} (h : ∀ cp∈cps,is_code_point_valid cp) :
    utf16to8 (encode16 cps)=some (encode cps) := by
  induction cps with
  | nil => rfl
  | cons cp cps ih =>
      rw [encode16_cons,utf16to8_units (h cp List.mem_cons_self),
        ih (fun d hd => h d (List.mem_cons_of_mem cp hd)),encode_cons]
      rfl

theorem length_units (cp : ℕ) : (units cp).length=if 0xffff < cp then 2 else 1 := by
  unfold units
  split_ifs <;> rfl

/-- There are as many units as code points where none needs a pair. -/
theorem length_encode16 (cps : List ℕ) :
    cps.length ≤ (encode16 cps).length ∧
      ((encode16 cps).length ≤ cps.length ↔ ∀ cp∈cps,cp ≤ 0xffff) := by
  induction cps with
  | nil => simp [encode16]
  | cons cp cps ih =>
      have hunits := length_units cp
      rw [encode16_cons,List.length_append,List.length_cons,List.forall_mem_cons,← ih.2]
      split_ifs at hunits <;> omega

/-- Code points without pairs are cut where their units are. -/
theorem take_encode16 {cps : List ℕ} (h : ∀ cp∈cps,cp ≤ 0xffff) (len : ℕ) :
    (encode16 cps).take len=encode16 (cps.take len) := by
  induction cps generalizing len with
  | nil => simp [encode16]
  | cons cp cps ih =>
      cases len with
      | zero => rfl
      | succ len =>
          have hunits : units cp=[cp%2^16] := by
            have hle := h cp List.mem_cons_self
            rw [units,if_neg (by omega)]
          rw [List.take_succ_cons,encode16_cons,encode16_cons,hunits,
            ← ih (fun d hd => h d (List.mem_cons_of_mem cp hd))]
          rfl

end Projectnelth.Utf8Codec
