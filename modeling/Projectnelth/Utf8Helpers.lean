import Projectnelth.Utf8Codec

/-!
# Strings of the server as wide strings

The buffers of the conversions are measured in code points, what is written in units. They agree for
strings whose code points need no pairs of units.
-/

namespace Projectnelth.Utf8Helpers

open Utf8Codec

/-! ## The functions -/

/-- What `utf8truncate` leaves, and what it uses of the wide string. -/
structure Truncated where
  utf8str : List UInt8
  /-- The units that the wide string was resized to. -/
  reserved : ℕ
  written : ℕ

/-- `utf8truncate`. Units behind the end of the wide string are not in it. -/
def utf8truncate (utf8str : List UInt8) (len : ℕ) : Truncated :=
  match distance utf8str with
  | none => ⟨[],0,0⟩
  | some wlen =>
    if wlen ≤ len then ⟨utf8str,0,0⟩
    else
      match utf8to16 utf8str with
      | none => ⟨[],wlen,0⟩
      | some wstr =>
        match utf16to8 ((wstr.take wlen).take len) with
        | none => ⟨[],wlen,wstr.length⟩
        | some bytes => ⟨bytes,wlen,wstr.length⟩

/-- What `Utf8toWStr` leaves in a buffer. -/
structure Converted where
  result : Bool
  /-- What it wrote, from the start of the buffer on. -/
  wstr : List ℕ
  /-- The units that the conversion wrote. -/
  written : ℕ
  wsize : ℕ

/-- `Utf8toWStr`, into a buffer. -/
def Utf8toWStr (utf8str : List UInt8) (wsize : ℕ) : Converted :=
  let failed : Converted := ⟨false,if 0 < wsize then [0] else [],0,0⟩
  match distance utf8str with
  | none => failed
  | some len =>
    if wsize < len then failed
    else
      match utf8to16 utf8str with
      | none => failed
      | some wstr =>
        -- the terminator is put behind as many units as there are code points
        ⟨true,if len < wstr.length then wstr.set len 0 else wstr++[0],wstr.length,len⟩

/-- `Utf8toWStr`, into a wide string. -/
def Utf8toWString (utf8str : List UInt8) : Bool×List ℕ :=
  match utf8to16 utf8str with
  | none => (false,[])
  | some wstr => (true,wstr)

/-- `WStrToUtf8`. Octets behind the reserved ones are not in the string. -/
def WStrToUtf8 (wstr : List ℕ) : Bool×List UInt8 :=
  match utf16to8 wstr with
  | none => (false,[])
  | some utf8str => (true,utf8str.take (wstr.length*4))

/-! ## What they are for -/

/-- A well-formed string of at most so many code points. -/
def Within (utf8str : List UInt8) (len : ℕ) : Prop := ∃ n∈distance utf8str,n ≤ len

/-- The longest start of a string that is well formed and has at most so many code points. -/
structure LongestPrefix (utf8str : List UInt8) (len : ℕ) (start : List UInt8) : Prop where
  /-- It is a start. -/
  isPrefix : start<+:utf8str
  /-- It is well formed and not too long. -/
  within : Within start len
  longest : ∀ other : List UInt8,other<+:utf8str → Within other len →
    other.length ≤ start.length

/-- `utf8truncate` leaves the longest start, or nothing of a malformed string, and writes what it
has reserved at most. -/
def TruncatesWell (utf8str : List UInt8) (len : ℕ) : Prop :=
  (utf8truncate utf8str len).written ≤ (utf8truncate utf8str len).reserved ∧
    match distance utf8str with
    | none => (utf8truncate utf8str len).utf8str=[]
    | some _ => LongestPrefix utf8str len (utf8truncate utf8str len).utf8str

/-- `Utf8toWStr` fails, or it writes as many units as the buffer has at most. -/
def StaysWithin (utf8str : List UInt8) (wsize : ℕ) : Prop :=
  (Utf8toWStr utf8str wsize).result=false ∨ (Utf8toWStr utf8str wsize).written ≤ wsize

/-- A wide string that is well formed. -/
def WellFormed (wstr : List ℕ) : Prop :=
  ∃ cps,(∀ cp∈cps,is_code_point_valid cp) ∧ wstr=encode16 cps

/-- A wide string comes back through a buffer. -/
def ComesBack (wstr : List ℕ) (wsize : ℕ) : Prop :=
  (Utf8toWStr (WStrToUtf8 wstr).2 wsize).result=true ∧
    (Utf8toWStr (WStrToUtf8 wstr).2 wsize).wstr.take
      (Utf8toWStr (WStrToUtf8 wstr).2 wsize).wsize=wstr

variable {utf8str : List UInt8} {cps : List ℕ} {len wsize : ℕ}

theorem distance_some (h : codePoints utf8str=some cps) : distance utf8str=some cps.length := by
  rw [distance,h,Option.map_some]

theorem utf8to16_some (h : codePoints utf8str=some cps) :
    utf8to16 utf8str=some (encode16 cps) := by
  rw [utf8to16,h,Option.map_some]

theorem longestPrefix_take (h : codePoints utf8str=some cps) :
    LongestPrefix utf8str len (encode (cps.take len)) := by
  obtain ⟨hvalid,hbytes⟩ := codePoints_eq_some.mp h
  have htake : ∀ cp∈cps.take len,is_code_point_valid cp :=
    fun cp hcp => hvalid cp (List.mem_of_mem_take hcp)
  constructor
  · refine ⟨encode (cps.drop len),?_⟩
    rw [← encode_append,List.take_append_drop,hbytes]
  · have hcut := distance_some (codePoints_eq_some.mpr ⟨htake,rfl⟩)
    refine ⟨_,hcut,?_⟩
    rw [List.length_take]
    exact Nat.min_le_left _ _
  · intro other hother hwithin
    obtain ⟨n,hn,hle⟩ := hwithin
    obtain ⟨first,hfirst,hlength⟩ := Option.map_eq_some_iff.mp hn
    obtain ⟨hvalidFirst,hotherBytes⟩ := codePoints_eq_some.mp hfirst
    rw [hotherBytes,hbytes] at hother
    have hstart := prefix_of_encode hvalidFirst hvalid hother
    have hshort : first<+:cps.take len :=
      List.prefix_take_iff.mpr ⟨hstart,by omega⟩
    obtain ⟨tail,htail⟩ := hshort
    rw [hotherBytes,← htail,encode_append,List.length_append]
    omega

/-- A string that is short enough is its own longest start. -/
theorem longestPrefix_self (h : codePoints utf8str=some cps) (hlen : cps.length ≤ len) :
    LongestPrefix utf8str len utf8str :=
  ⟨List.prefix_refl _,⟨_,distance_some h,hlen⟩,fun _ hother _ => hother.length_le⟩

/-- A string is truncated well where it is malformed or short enough, or needs no pairs. -/
theorem truncatesWell_iff (utf8str : List UInt8) (len : ℕ) :
    TruncatesWell utf8str len ↔
      ∀ cps,codePoints utf8str=some cps → cps.length ≤ len ∨ ∀ cp∈cps,cp ≤ 0xffff := by
  unfold TruncatesWell
  cases h : codePoints utf8str with
  | none =>
      have hdistance : distance utf8str=none := by rw [distance,h,Option.map_none]
      simp only [utf8truncate,hdistance,reduceCtorEq,false_imp_iff,implies_true,le_refl,
        and_self]
  | some cps =>
      have hdistance := distance_some h
      have hwide := utf8to16_some h
      have hcount := length_encode16 cps
      simp only [Option.some.injEq,forall_eq']
      by_cases hshort : cps.length ≤ len
      · simp only [utf8truncate,hdistance,hshort,if_true,le_refl,true_and,true_or,iff_true]
        exact longestPrefix_self h hshort
      have hwritten : ∀ bytes,(match utf16to8 (((encode16 cps).take cps.length).take len) with
          | none => Truncated.mk [] cps.length (encode16 cps).length
          | some bytes => ⟨bytes,cps.length,(encode16 cps).length⟩)=bytes →
          bytes.written=(encode16 cps).length ∧ bytes.reserved=cps.length := by
        intro bytes hbytes
        rw [← hbytes]
        split <;> exact ⟨rfl,rfl⟩
      simp only [utf8truncate,hdistance,hshort,if_false,hwide,false_or]
      obtain ⟨hw,hr⟩ := hwritten _ rfl
      rw [hw,hr,hcount.2]
      constructor
      · intro hboth
        exact hboth.1
      intro hplain
      refine ⟨hplain,?_⟩
      have hall : (encode16 cps).take cps.length=encode16 cps := by
        rw [List.take_of_length_le (hcount.2.mpr hplain)]
      have hvalid := (codePoints_eq_some.mp h).1
      have hback : utf16to8 (encode16 (cps.take len))=some (encode (cps.take len)) :=
        utf16to8_encode16 fun cp hcp => hvalid cp (List.mem_of_mem_take hcp)
      rw [hall,take_encode16 hplain,hback]
      exact longestPrefix_take h

/-- The conversion into a buffer stays within it where the units of a string with no more code points
than the buffer has units fit too. -/
theorem staysWithin_iff (utf8str : List UInt8) (wsize : ℕ) :
    StaysWithin utf8str wsize ↔
      ∀ cps,codePoints utf8str=some cps → cps.length ≤ wsize →
        (encode16 cps).length ≤ wsize := by
  unfold StaysWithin
  cases h : codePoints utf8str with
  | none =>
      have hdistance : distance utf8str=none := by rw [distance,h,Option.map_none]
      simp only [Utf8toWStr,hdistance,true_or,reduceCtorEq,false_imp_iff,implies_true]
  | some cps =>
      have hdistance := distance_some h
      have hwide := utf8to16_some h
      simp only [Option.some.injEq,forall_eq']
      by_cases hlong : wsize < cps.length
      · simp only [Utf8toWStr,hdistance,hlong,if_true,true_or,true_iff]
        intro hle
        omega
      · simp only [Utf8toWStr,hdistance,hlong,if_false,hwide,Bool.true_eq_false,false_or,
          not_lt.mp hlong,true_imp_iff]

theorem append_eq_some {cp : ℕ} {bytes : List UInt8} (h : append cp=some bytes) :
    is_code_point_valid cp ∧ bytes=octets cp := by
  unfold append at h
  split_ifs at h with hvalid
  exact ⟨hvalid,(Option.some.inj h).symm⟩

/-- A pair of surrogates is the pair of the code point that it is read as. -/
theorem units_pair {lead trail : ℕ} (hlead : is_lead_surrogate (lead%2^16)=true)
    (htrail : is_trail_surrogate (trail%2^16)=true) :
    units ((lead%2^16*2^10+trail%2^16+SURROGATE_OFFSET)%2^32)=[lead%2^16,trail%2^16] := by
  simp only [is_lead_surrogate,is_trail_surrogate,Bool.and_eq_true,decide_eq_true_eq]
    at hlead htrail
  unfold units SURROGATE_OFFSET LEAD_OFFSET
  rw [if_pos (by omega),List.cons.injEq,List.cons.injEq]
  refine ⟨?_,?_,rfl⟩ <;> omega

/-- Whatever units are written are those of code points, whose octets are written. -/
theorem utf16to8_some (wstr : List ℕ) : ∀ bytes,utf16to8 wstr=some bytes →
    ∃ cps,(∀ cp∈cps,is_code_point_valid cp) ∧ wstr.map (·%2^16)=encode16 cps ∧
      bytes=encode cps := by
  induction wstr using utf16to8.induct with
  | case1 => exact fun bytes h => ⟨[],nofun,rfl,(Option.some.inj h).symm⟩
  | case2 unit cp hlead =>
    intro bytes h
    rw [utf16to8,if_pos hlead] at h
    cases h
  | case3 unit cp hlead trail wstr htrail ih =>
    intro bytes h
    simp only [utf16to8,cp,hlead,htrail,if_true] at h
    obtain ⟨first,hfirst,hmap⟩ := Option.bind_eq_some_iff.mp h
    obtain ⟨last,hlast,rfl⟩ := Option.map_eq_some_iff.mp hmap
    obtain ⟨cps,hvalid,hunits,rfl⟩ := ih last hlast
    obtain ⟨hpair,hwritten⟩ := append_eq_some hfirst
    rw [hwritten]
    refine ⟨_::cps,List.forall_mem_cons.mpr ⟨hpair,hvalid⟩,?_,(encode_cons _ _).symm⟩
    simp only [List.map_cons,encode16_cons,units_pair hlead htrail,hunits,List.cons_append,
      List.nil_append]
  | case4 unit cp hlead trail wstr htrail =>
    intro bytes h
    rw [utf16to8,if_pos hlead,if_neg htrail] at h
    cases h
  | case5 unit wstr cp hlead htrail =>
    intro bytes h
    rw [utf16to8.eq_def] at h
    dsimp only at h
    rw [if_neg hlead,if_pos htrail] at h
    cases h
  | case6 unit wstr cp hlead htrail ih =>
    intro bytes h
    rw [utf16to8_alone (Bool.eq_false_of_not_eq_true hlead)
      (Bool.eq_false_of_not_eq_true htrail)] at h
    obtain ⟨first,hfirst,hmap⟩ := Option.bind_eq_some_iff.mp h
    obtain ⟨last,hlast,rfl⟩ := Option.map_eq_some_iff.mp hmap
    obtain ⟨cps,hvalid,hunits,rfl⟩ := ih last hlast
    obtain ⟨halone,rfl⟩ := append_eq_some hfirst
    refine ⟨_::cps,List.forall_mem_cons.mpr ⟨halone,hvalid⟩,?_,(encode_cons _ _).symm⟩
    rw [encode16_cons,units,if_neg (by omega),← hunits,Nat.mod_mod]
    rfl

theorem length_encode_le (cps : List ℕ) : (encode cps).length ≤ (encode16 cps).length*4 := by
  induction cps with
  | nil => exact Nat.zero_le _
  | cons cp cps ih =>
    have hfour : (octets cp).length ≤ (units cp).length*4 := by
      unfold octets units
      split_ifs <;> simp
    rw [encode_cons,encode16_cons,List.length_append,List.length_append]
    omega

/-- Four octets for each unit are enough. -/
theorem length_utf16to8 {wstr : List ℕ} {bytes : List UInt8} (h : utf16to8 wstr=some bytes) :
    bytes.length ≤ wstr.length*4 := by
  obtain ⟨cps,-,hunits,rfl⟩ := utf16to8_some wstr bytes h
  rw [← @List.length_map _ _ wstr (·%2^16),hunits]
  exact length_encode_le cps

theorem WStrToUtf8_some {wstr : List ℕ} {bytes : List UInt8} (h : utf16to8 wstr=some bytes) :
    WStrToUtf8 wstr=(true,bytes) := by
  rw [WStrToUtf8,h]
  exact congrArg (Prod.mk true) (List.take_of_length_le (length_utf16to8 h))

/-- A well-formed wide string is written as its code points. -/
theorem WStrToUtf8_encode16 (h : ∀ cp∈cps,is_code_point_valid cp) :
    WStrToUtf8 (encode16 cps)=(true,encode cps) :=
  WStrToUtf8_some (utf16to8_encode16 h)

/-- A well-formed wide string comes back through a wide string. -/
theorem roundTrip_string (h : ∀ cp∈cps,is_code_point_valid cp) :
    Utf8toWString (WStrToUtf8 (encode16 cps)).2=(true,encode16 cps) := by
  rw [WStrToUtf8_encode16 h,Utf8toWString,
    utf8to16_some (codePoints_eq_some.mpr ⟨h,rfl⟩)]

/-- A well-formed wide string comes back through a buffer with room for it where it has no pair. -/
theorem roundTrip_buffer (h : ∀ cp∈cps,is_code_point_valid cp)
    (hroom : (encode16 cps).length ≤ wsize) :
    ComesBack (encode16 cps) wsize ↔ ∀ cp∈cps,cp ≤ 0xffff := by
  have hread : codePoints (encode cps)=some cps := codePoints_eq_some.mpr ⟨h,rfl⟩
  have hcount := length_encode16 cps
  unfold ComesBack
  rw [WStrToUtf8_encode16 h,← hcount.2]
  simp only [Utf8toWStr,distance_some hread,utf8to16_some hread]
  rw [if_neg (by omega)]
  simp only [true_and]
  by_cases hpairs : cps.length < (encode16 cps).length
  · rw [if_pos hpairs]
    constructor
    · intro heq
      have hlength := congrArg List.length heq
      rw [List.length_take,List.length_set] at hlength
      omega
    · intro hle
      omega
  · have hsame : cps.length=(encode16 cps).length := by omega
    rw [if_neg hpairs,hsame,List.take_left]
    exact iff_of_true rfl (Nat.le_refl _)

/-- The units of code points have no surrogates where no pair is needed. -/
theorem no_surrogate_iff (h : ∀ cp∈cps,is_code_point_valid cp) :
    (∀ unit∈encode16 cps,is_surrogate unit=false) ↔ ∀ cp∈cps,cp ≤ 0xffff := by
  unfold encode16
  simp only [List.mem_flatMap,forall_exists_index,and_imp]
  constructor
  · intro hall cp hcp
    by_contra hpair
    have hlead := hall ((cp/2^10+LEAD_OFFSET)%2^16) cp hcp (by
      rw [units,if_pos (by omega)]
      exact List.mem_cons_self)
    have hbounds := h cp hcp
    simp only [is_code_point_valid,Bool.and_eq_true,decide_eq_true_eq] at hbounds
    have hunit : (cp/2^10+LEAD_OFFSET)%2^16=cp/2^10+0xd7c0 := by
      unfold LEAD_OFFSET
      omega
    have hsurrogate : is_surrogate (cp/2^10+0xd7c0)=true := by
      simp only [is_surrogate,Bool.and_eq_true,decide_eq_true_eq]
      omega
    rw [hunit,hsurrogate] at hlead
    cases hlead
  · intro hall unit cp hcp hunit
    have hle := hall cp hcp
    rw [units,if_neg (by omega),List.mem_singleton,Nat.mod_eq_of_lt (by omega)] at hunit
    have hbounds := h cp hcp
    simp only [is_code_point_valid,Bool.and_eq_true,Bool.not_eq_true'] at hbounds
    rw [hunit]
    exact hbounds.2

/-- The helpers respect their buffers and the characters exactly where code points and units are as
many; through a wide string a well-formed one always comes back. -/
theorem utf8_helpers_iff (utf8str : List UInt8) (len wsize : ℕ) (wstr : List ℕ) :
    (TruncatesWell utf8str len ↔
      ∀ cps,codePoints utf8str=some cps → cps.length ≤ len ∨ ∀ cp∈cps,cp ≤ 0xffff) ∧
    (StaysWithin utf8str wsize ↔
      ∀ cps,codePoints utf8str=some cps → cps.length ≤ wsize →
        (encode16 cps).length ≤ wsize) ∧
    (WellFormed wstr →
      (WStrToUtf8 wstr).1=true ∧ Utf8toWString (WStrToUtf8 wstr).2=(true,wstr) ∧
        (wstr.length ≤ wsize →
          (ComesBack wstr wsize ↔ ∀ unit∈wstr,is_surrogate unit=false))) := by
  refine ⟨truncatesWell_iff utf8str len,staysWithin_iff utf8str wsize,?_⟩
  rintro ⟨cps,hvalid,hwstr⟩
  rw [hwstr]
  refine ⟨by rw [WStrToUtf8_encode16 hvalid],roundTrip_string hvalid,?_⟩
  intro hroom
  rw [roundTrip_buffer hvalid hroom,no_surrogate_iff hvalid]

/-- A letter of two octets and a sign of three, and a wide string with a pair of units. -/
theorem utf8_helpers_signs :
    TruncatesWell [0xd0,0xb6,0xe2,0x82,0xac] 1 ∧ StaysWithin [0xd0,0xb6,0xe2,0x82,0xac] 2 ∧
      Utf8toWString (WStrToUtf8 [0x436,0xd800,0xdf48]).2=(true,[0x436,0xd800,0xdf48]) ∧
      ComesBack [0x436,0x20ac] 2 := by
  have hread : codePoints [0xd0,0xb6,0xe2,0x82,0xac]=some [0x436,0x20ac] := by decide
  obtain ⟨htruncates,hstays,hback⟩ :=
    utf8_helpers_iff [0xd0,0xb6,0xe2,0x82,0xac] 1 2 [0x436,0x20ac]
  have hpair := (utf8_helpers_iff [] 0 0 [0x436,0xd800,0xdf48]).2.2
    ⟨[0x436,0x10348],by decide,by decide⟩
  refine ⟨htruncates.mpr fun cps hcps => ?_,hstays.mpr fun cps hcps _ => ?_,hpair.2.1,
    ((hback ⟨[0x436,0x20ac],by decide,by decide⟩).2.2 (by decide)).mpr (by decide)⟩
  · rw [← Option.some.inj (hread.symm.trans hcps)]
    exact Or.inr (by decide)
  · rw [← Option.some.inj (hread.symm.trans hcps)]
    decide

/-- Two characters that need a pair of units each do not fit the wide string of two units that they
are converted to, and the first unit alone is no character. -/
theorem not_truncatesWell_pairs :
    ¬∀ utf8str len,TruncatesWell utf8str len := by
  intro h
  have hpairs := h [0xf0,0x90,0x8d,0x88,0xf0,0x90,0x8d,0x88] 1
  rw [truncatesWell_iff] at hpairs
  have hread : codePoints [0xf0,0x90,0x8d,0x88,0xf0,0x90,0x8d,0x88]=some [0x10348,0x10348] := by
    decide
  have hnot := hpairs _ hread
  revert hnot
  decide

/-- The conversions undo each other: octets that were written are read back as the units they were
written of, and units that were read are written as the octets they were read from. -/
theorem wide_strings_back (utf8str : List UInt8) (wstr : List ℕ) :
    (WStrToUtf8 wstr=(true,utf8str) → Utf8toWString utf8str=(true,wstr.map (·%2^16))) ∧
      (Utf8toWString utf8str=(true,wstr) → WStrToUtf8 wstr=(true,utf8str)) := by
  constructor
  · intro h
    cases hbytes : utf16to8 wstr with
    | none =>
      rw [WStrToUtf8,hbytes] at h
      cases h
    | some bytes =>
      rw [WStrToUtf8_some hbytes] at h
      obtain rfl := (Prod.mk.inj h).2
      obtain ⟨cps,hvalid,hunits,rfl⟩ := utf16to8_some wstr _ hbytes
      rw [Utf8toWString,utf8to16_some (codePoints_eq_some.mpr ⟨hvalid,rfl⟩),hunits]
  · intro h
    cases hread : codePoints utf8str with
    | none =>
      rw [Utf8toWString,utf8to16,hread] at h
      cases h
    | some cps =>
      obtain ⟨hvalid,rfl⟩ := codePoints_eq_some.mp hread
      rw [Utf8toWString,utf8to16_some hread] at h
      rw [← (Prod.mk.inj h).2]
      exact WStrToUtf8_encode16 hvalid

theorem wide_strings_back_pair :
    Utf8toWString [0xd0,0xb6,0xf0,0x90,0x8d,0x88]=(true,[0x436,0xd800,0xdf48]) ∧
      WStrToUtf8 [0x436,0xd800,0xdf48]=(true,[0xd0,0xb6,0xf0,0x90,0x8d,0x88]) := by
  have hback := wide_strings_back [0xd0,0xb6,0xf0,0x90,0x8d,0x88] [0x436,0xd800,0xdf48]
  exact ⟨hback.1 (by decide),hback.2 (by decide)⟩

end Projectnelth.Utf8Helpers
