import Mathlib

/-!
# Durations as strings

A duration is printed as its days, hours, minutes and seconds. A string of numbers with units is read
back in 32 bits: what it denotes is kept modulo the size of a word only.
-/

namespace Projectnelth.DurationStrings

def MINUTE : ℕ := 60

def HOUR : ℕ := MINUTE*60

def DAY : ℕ := HOUR*24

/-! ## The two functions -/

def secsToTimeString (timeInSecs : UInt64) (shortText hoursOnly : Bool) : List Char :=
  let secs := timeInSecs.toNat%MINUTE
  let minutes := timeInSecs.toNat%HOUR/MINUTE
  let hours := timeInSecs.toNat%DAY/HOUR
  let days := timeInSecs.toNat/DAY
  let part (n : ℕ) (short long : String) : List Char :=
    Nat.toDigits 10 n++(if shortText then short else long).toList
  (if days≠0 then part days "d" " Day(s) " else [])++
    (if hours≠0 || hoursOnly then part hours "h" " Hour(s) " else [])++
    (if hoursOnly then []
      else
        (if minutes≠0 then part minutes "m" " Minute(s) " else [])++
          (if secs≠0 || (days=0 && hours=0 && minutes=0) then part secs "s" " Second(s)."
            else []))

/-- The factor of a unit letter in `TimeStringToSecs`; none where the format is bad. -/
def multiplier (letter : Char) : Option ℕ :=
  if letter = 'd' then some DAY
  else if letter = 'h' then some HOUR
  else if letter = 'm' then some MINUTE
  else if letter = 's' then some 1
  else none

/-- The loop of `TimeStringToSecs`. -/
def scan : List Char → UInt32 → UInt32 → UInt32
  | [],secs,_ => secs
  | c::timestring,secs,buffer =>
    if c.isDigit then scan timestring secs (buffer*10+UInt32.ofNat (c.toNat- '0'.toNat))
    else
      match multiplier c with
      | some factor => scan timestring (secs+buffer*UInt32.ofNat factor) 0
      | none => 0

def TimeStringToSecs (timestring : List Char) : UInt32 := scan timestring 0 0

/-! ## What a string denotes -/

/-- The units of a duration string. -/
inductive TimeUnit
  /-- `d`. -/
  | day
  /-- `h`. -/
  | hour
  /-- `m`. -/
  | minute
  /-- `s`. -/
  | second
  deriving DecidableEq

/-- The letter of a unit. -/
def TimeUnit.letter : TimeUnit → Char
  | day => 'd'
  | hour => 'h'
  | minute => 'm'
  | second => 's'

/-- The seconds of a unit. -/
def TimeUnit.seconds : TimeUnit → ℕ
  | day => 86400
  | hour => 3600
  | minute => 60
  | second => 1

/-- A decimal number with its unit. -/
structure Part where
  digits : List Char
  unit : TimeUnit
  nonempty : digits≠[]
  decimal : ∀ c∈digits,c.isDigit

/-- The text of a part. -/
def Part.text (part : Part) : List Char := part.digits++[part.unit.letter]

/-- The number of a part in seconds. -/
def Part.seconds (part : Part) : ℕ := Nat.ofDigitChars 10 part.digits 0*part.unit.seconds

/-- The text of some parts one behind the other. -/
def text (parts : List Part) : List Char := parts.flatMap Part.text

/-- The seconds that some parts denote together. -/
def seconds (parts : List Part) : ℕ := (parts.map Part.seconds).sum

/-- The characters of duration strings. -/
def Known (c : Char) : Prop := c.isDigit ∨ ∃ unit : TimeUnit,c=unit.letter

/-- The part of a number. -/
def numeral (n : ℕ) (unit : TimeUnit) : Part where
  digits := Nat.toDigits 10 n
  unit := unit
  nonempty := Nat.toDigits_ne_nil
  decimal := fun _ hc => Nat.isDigit_of_mem_toDigits (by omega) (by omega) hc

theorem seconds_numeral (n : ℕ) (unit : TimeUnit) : (numeral n unit).seconds=n*unit.seconds := by
  simp only [Part.seconds,numeral,Nat.ofDigitChars_ten_toDigits]

/-! ## Reading -/

theorem letter_not_digit (unit : TimeUnit) : unit.letter.isDigit=false := by
  cases unit <;> rfl

theorem multiplier_letter (unit : TimeUnit) : multiplier unit.letter=some unit.seconds := by
  cases unit <;> rfl

theorem multiplier_eq_none {c : Char} (h : ¬∃ unit : TimeUnit,c=unit.letter) :
    multiplier c=none := by
  have hday : c ≠ 'd' := fun heq => h ⟨.day,heq⟩
  have hhour : c ≠ 'h' := fun heq => h ⟨.hour,heq⟩
  have hminute : c ≠ 'm' := fun heq => h ⟨.minute,heq⟩
  have hsecond : c ≠ 's' := fun heq => h ⟨.second,heq⟩
  simp only [multiplier,if_neg hday,if_neg hhour,if_neg hminute,if_neg hsecond]

/-- The digits of a number are read into the buffer. -/
theorem scan_digits (digits rest : List Char) (hd : ∀ c∈digits,c.isDigit) (secs : UInt32)
    (n : ℕ) :
    scan (digits++rest) secs (UInt32.ofNat n)=
      scan rest secs (UInt32.ofNat (Nat.ofDigitChars 10 digits n)) := by
  induction digits generalizing n with
  | nil => rw [List.nil_append,Nat.ofDigitChars_nil]
  | cons c digits ih =>
      have hbuffer : UInt32.ofNat n*10+UInt32.ofNat (c.toNat- '0'.toNat)=
          UInt32.ofNat (10*n+(c.toNat- '0'.toNat)) := by
        rw [UInt32.ofNat_add,UInt32.ofNat_mul,UInt32.mul_comm]
        rfl
      rw [List.cons_append,scan,if_pos (hd c List.mem_cons_self),hbuffer,
        ih (fun d hmem => hd d (List.mem_cons_of_mem c hmem)),Nat.ofDigitChars_cons]

theorem scan_part (part : Part) (rest : List Char) (n : ℕ) :
    scan (part.text++rest) (UInt32.ofNat n) 0=scan rest (UInt32.ofNat (n+part.seconds)) 0 := by
  have hdigits := scan_digits part.digits (part.unit.letter::rest) part.decimal (UInt32.ofNat n) 0
  have hzero : UInt32.ofNat 0=0 := rfl
  rw [hzero] at hdigits
  rw [Part.text,List.append_assoc,List.singleton_append,hdigits,scan,letter_not_digit]
  simp only [Bool.false_eq_true,if_false,multiplier_letter,Part.seconds,UInt32.ofNat_add,
    UInt32.ofNat_mul]

theorem scan_text (parts : List Part) (n : ℕ) :
    scan (text parts) (UInt32.ofNat n) 0=UInt32.ofNat (n+seconds parts) := by
  induction parts generalizing n with
  | nil => rfl
  | cons part parts ih =>
      have htext : text (part::parts)=part.text++text parts := List.flatMap_cons
      have hseconds : seconds (part::parts)=part.seconds+seconds parts := List.sum_cons
      rw [htext,hseconds,scan_part,ih,Nat.add_assoc]

/-- What is read of parts is what they denote, in a word. -/
theorem TimeStringToSecs_text (parts : List Part) :
    TimeStringToSecs (text parts)=UInt32.ofNat (seconds parts) := by
  have hscan := scan_text parts 0
  rw [Nat.zero_add] at hscan
  exact hscan

/-- A string with another character is not read. -/
theorem scan_unknown (timestring : List Char) (secs buffer : UInt32)
    (h : ∃ c∈timestring,¬Known c) : scan timestring secs buffer=0 := by
  induction timestring generalizing secs buffer with
  | nil =>
      obtain ⟨c,hmem,_⟩ := h
      cases hmem
  | cons head timestring ih =>
      obtain ⟨c,hmem,hc⟩ := h
      rw [scan]
      by_cases hdigit : head.isDigit
      · rw [if_pos hdigit]
        apply ih
        rcases List.mem_cons.mp hmem with heq | hrest
        · rw [heq] at hc
          exact absurd (Or.inl hdigit) hc
        · exact ⟨c,hrest,hc⟩
      · rw [if_neg hdigit]
        rcases List.mem_cons.mp hmem with heq | hrest
        · rw [heq] at hc
          rw [multiplier_eq_none fun hunit => hc (Or.inr hunit)]
        · cases multiplier head with
          | none => rfl
          | some factor => exact ih _ _ ⟨c,hrest,hc⟩

/-! ## Printing -/

/-- The parts that are printed of a time. -/
def printed (t : ℕ) : List Part :=
  (if t/DAY≠0 then [numeral (t/DAY) .day] else [])++
    (if t%DAY/HOUR≠0 then [numeral (t%DAY/HOUR) .hour] else [])++
    (if t%HOUR/MINUTE≠0 then [numeral (t%HOUR/MINUTE) .minute] else [])++
    (if t%MINUTE≠0 ∨ t/DAY=0 ∧ t%DAY/HOUR=0 ∧ t%HOUR/MINUTE=0 then [numeral (t%MINUTE) .second]
      else [])

theorem text_append (first last : List Part) : text (first++last)=text first++text last :=
  List.flatMap_append

theorem seconds_append (first last : List Part) :
    seconds (first++last)=seconds first+seconds last := by
  rw [seconds,List.map_append,List.sum_append]
  rfl

/-- A part that may be left out. -/
theorem text_optional (p : Prop) [Decidable p] (n : ℕ) (unit : TimeUnit) :
    text (if p then [numeral n unit] else [])=
      if p then Nat.toDigits 10 n++[unit.letter] else [] := by
  by_cases h : p
  · rw [if_pos h,if_pos h]
    exact List.append_nil _
  · rw [if_neg h,if_neg h]
    rfl

/-- A part is left out where its number is zero only. -/
theorem seconds_optional (p : Prop) [Decidable p] (n : ℕ) (unit : TimeUnit) (h : ¬p → n=0) :
    seconds (if p then [numeral n unit] else [])=n*unit.seconds := by
  by_cases hp : p
  · rw [if_pos hp,← seconds_numeral]
    exact Nat.add_zero _
  · rw [if_neg hp,h hp,Nat.zero_mul]
    rfl

theorem secsToTimeString_short (t : UInt64) :
    secsToTimeString t true false=text (printed t.toNat) := by
  simp only [printed,text_append,text_optional,secsToTimeString,if_true,Bool.or_false,
    Bool.false_eq_true,if_false,decide_eq_true_eq,Bool.or_eq_true,Bool.and_eq_true,
    List.append_assoc,and_assoc]
  rfl

/-- The parts of a time denote it. -/
theorem seconds_printed (t : ℕ) : seconds (printed t)=t := by
  simp only [printed,seconds_append]
  rw [seconds_optional _ _ _ (by omega),seconds_optional _ _ _ (by omega),
    seconds_optional _ _ _ (by omega),seconds_optional _ _ _ (by omega)]
  simp only [TimeUnit.seconds,DAY,HOUR,MINUTE]
  omega

/-! ## What is read and what is denoted -/

/-- A number in a word is kept, lost as a whole or made smaller. -/
theorem ofNat_kept_iff (n : ℕ) :
    ((UInt32.ofNat n).toNat=n ∨ UInt32.ofNat n=0) ↔ n < 2^32 ∨ 2^32∣n := by
  have hzero : UInt32.ofNat n=0 ↔ n%2^32=0 := by
    rw [← UInt32.toNat_inj,UInt32.toNat_ofNat',UInt32.toNat_zero]
  rw [hzero,UInt32.toNat_ofNat',Nat.dvd_iff_mod_eq_zero]
  omega

/-- What is printed is read back, another character is refused, and the seconds that a string of
numbers with units denotes are read, or none, exactly where they fit a word or are lost as a
whole. -/
theorem durations_iff (t : UInt32) (timestring : List Char) (parts : List Part) :
    TimeStringToSecs (secsToTimeString t.toUInt64 true false)=t ∧
      ((∃ c∈timestring,¬Known c) → TimeStringToSecs timestring=0) ∧
      (parts≠[] →
        (((TimeStringToSecs (text parts)).toNat=seconds parts ∨
          TimeStringToSecs (text parts)=0) ↔ seconds parts < 2^32 ∨ 2^32∣seconds parts)) := by
  refine ⟨?_,?_,?_⟩
  · rw [secsToTimeString_short,TimeStringToSecs_text,seconds_printed,UInt32.toNat_toUInt64,
      UInt32.ofNat_toNat]
  · intro h
    exact scan_unknown timestring 0 0 h
  · intro _
    rw [TimeStringToSecs_text]
    exact ofNat_kept_iff (seconds parts)

/-- A time, a bad string and a duration. -/
theorem durations_sample :
    TimeStringToSecs (secsToTimeString 90061 true false)=90061 ∧
      TimeStringToSecs "1d 5m".toList=0 ∧
      ((TimeStringToSecs (text [numeral 1 .day])).toNat=86400 ∨
        TimeStringToSecs (text [numeral 1 .day])=0) := by
  obtain ⟨hprinted,hbad,hread⟩ := durations_iff 90061 "1d 5m".toList [numeral 1 .day]
  refine ⟨hprinted,hbad ⟨' ',by decide,?_⟩,?_⟩
  · rintro (hdigit | ⟨unit,hunit⟩)
    · exact absurd hdigit (by decide)
    · cases unit <;> exact absurd hunit (by decide)
  · exact (hread (List.cons_ne_nil _ _)).mpr (Or.inl (by decide))

/-- One second past a word is read as one second. -/
theorem not_durations_long :
    ¬∀ parts : List Part,parts≠[] →
      (TimeStringToSecs (text parts)).toNat=seconds parts ∨ TimeStringToSecs (text parts)=0 := by
  intro h
  have hlong := h [numeral 4294967297 .second] (List.cons_ne_nil _ _)
  rw [TimeStringToSecs_text,ofNat_kept_iff] at hlong
  revert hlong
  decide

end Projectnelth.DurationStrings
