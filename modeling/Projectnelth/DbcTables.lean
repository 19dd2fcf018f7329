import Mathlib
import Projectnelth.DbcModel

/-!
# Tables and their files

A record of a format has a number for each field that fits the bytes of the field. A file has the
header, the records and the string table. It is loaded when it is not empty behind the header and
its size has 32 bits, and then each field is read where it was written.
-/

namespace Projectnelth.DbcModel

open BitBytes ByteBlock

/-- The size of a record in a file. -/
def fileSizes (fmt : List Ft) : ℕ := (fmt.map Ft.fileSize).sum

/-- The size of a structure. -/
def structSize (fmt : List Ft) : ℕ := (fmt.map Ft.size).sum

/-- The character of an index. -/
def Ft.isIndex (c : Ft) : Bool := c=.sort || c=.ind

/-- A format whose record size has 32 bits. -/
structure Format where
  fields : List Ft
  /-- The size of a record. -/
  small : fileSizes fields < 2^32
  single : (fields.filter Ft.isIndex).length ≤ 1

/-- A record: a number for each field that fits its bytes. -/
inductive Row : List Ft → Type where
  /-- There is no field. -/
  | nil : Row []
  /-- The number of the first field, and the others. -/
  | cons {c : Ft} {fmt : List Ft} (v : Fin (256^c.fileSize)) (rest : Row fmt) : Row (c::fmt)

namespace Row

/-- The bytes of a record. -/
def encode : {fmt : List Ft} → Row fmt → List UInt8
  | _,.nil => []
  | c::_,.cons v rest => leBytes c.fileSize v++rest.encode

/-- The places of the strings of a record. -/
def texts : {fmt : List Ft} → Row fmt → List ℕ
  | _,.nil => []
  | c::_,.cons v rest => if c=.string then v::rest.texts else rest.texts

theorem length_encode {fmt : List Ft} (row : Row fmt) : row.encode.length=fileSizes fmt := by
  induction row with
  | nil => rfl
  | cons v rest ih =>
    unfold encode fileSizes
    rw [List.length_append,length_leBytes,ih,List.map_cons,List.sum_cons]
    rfl

end Row

/-- The records and the strings of a table. -/
structure Table (F : Format) where
  rows : List (Row F.fields)
  strings : List UInt8
  /-- The number of records is a word. -/
  rows_lt : rows.length < 2^32
  /-- The size of the string table is a word. -/
  strings_lt : strings.length < 2^32
  texts : ∀ row∈rows,∀ v∈row.texts,v < strings.length

namespace Table

variable {F : Format} (T : Table F)

/-- The bytes behind the header. -/
def payload : List UInt8 := T.rows.flatMap Row.encode++T.strings

/-- The file of a table. -/
def file : List UInt8 :=
  leBytes 4 0x43424457++(leBytes 4 T.rows.length++(leBytes 4 F.fields.length++
    (leBytes 4 (fileSizes F.fields)++(leBytes 4 T.strings.length++T.payload))))

/-- The loader that has all of the file. -/
def loader : DBCFileLoader where
  recordSize := fileSizes F.fields
  recordCount := T.rows.length
  fieldCount := F.fields.length
  stringSize := T.strings.length
  fieldsOffset := (List.range F.fields.length).map fun k => fileSizes (F.fields.take k)
  data := T.payload

end Table

/-! ## Loading -/

section Loading

variable {F : Format} (T : Table F)

theorem word_leBytes {size v : ℕ} (h : v < 256^size) : word (leBytes size v)=v :=
  ofDigits_leBytes h

theorem readWord_leBytes {v : ℕ} (h : v < 2^32) (f : List UInt8) :
    readWord (leBytes 4 v++f)=some (v,f) := by
  have hword : word (leBytes 4 v)=v := word_leBytes (by omega)
  have hbytes : leBytes 4 v=[UInt8.ofNat v,UInt8.ofNat (v/256),UInt8.ofNat (v/256/256),
      UInt8.ofNat (v/256/256/256)] := rfl
  rw [hbytes] at hword ⊢
  change some (word _,f)=_
  rw [hword]

theorem one_le_fileSize (c : Ft) : 1 ≤ c.fileSize := by
  cases c <;> decide

theorem length_le_fileSizes (fmt : List Ft) : fmt.length ≤ fileSizes fmt := by
  induction fmt with
  | nil => exact Nat.le_refl 0
  | cons c fmt ih =>
    have hone := one_le_fileSize c
    unfold fileSizes at ih ⊢
    rw [List.length_cons,List.map_cons,List.sum_cons]
    omega

theorem readHeader_file :
    readHeader T.file=some (⟨T.rows.length,F.fields.length,fileSizes F.fields,T.strings.length⟩,
      T.payload) := by
  have hfields : F.fields.length < 2^32 := (length_le_fileSizes F.fields).trans_lt F.small
  unfold readHeader Table.file
  simp only [readWord_leBytes (show 0x43424457 < 2^32 by omega),readWord_leBytes T.rows_lt,
    readWord_leBytes hfields,readWord_leBytes F.small,readWord_leBytes T.strings_lt,
    Option.bind_some,ne_eq,not_true_eq_false,if_false,Option.map_some]

theorem offsetsFrom_eq (offset n : ℕ) (fmt : List Ft) (hn : n ≤ fmt.length)
    (hsmall : offset+fileSizes fmt < 2^32) :
    offsetsFrom offset n fmt=
      some ((List.range n).map fun k => offset+fileSizes (fmt.take (k+1))) := by
  induction n generalizing offset fmt with
  | zero => cases fmt <;> rfl
  | succ n ih =>
    cases fmt with
    | nil => exact absurd hn (Nat.not_succ_le_zero n)
    | cons c fmt =>
      have hsum : fileSizes (c::fmt)=c.fileSize+fileSizes fmt := rfl
      have hmod : (offset+c.fileSize)%UINT32=offset+c.fileSize := by
        unfold UINT32
        exact Nat.mod_eq_of_lt (by omega)
      unfold offsetsFrom
      dsimp only
      rw [hmod,ih _ fmt (Nat.le_of_succ_le_succ hn) (by omega),Option.map_some,
        List.range_succ_eq_map,List.map_cons,List.map_map]
      congr 2
      · apply List.map_congr_left
        intro k _
        change offset+c.fileSize+fileSizes (fmt.take (k+1))=
          offset+(c.fileSize+fileSizes (fmt.take (k+1)))
        omega

theorem makeFieldsOffset_eq {fmt : List Ft} (h : fmt≠[]) (hsmall : fileSizes fmt < 2^32) :
    makeFieldsOffset fmt.length fmt=
      some ((List.range fmt.length).map fun k => fileSizes (fmt.take k)) := by
  cases fmt with
  | nil => exact absurd rfl h
  | cons c fmt =>
    unfold makeFieldsOffset
    rw [if_neg (by simp),List.length_cons,Nat.add_sub_cancel,
      offsetsFrom_eq 0 fmt.length (c::fmt) (Nat.le_succ _) (by omega),Option.map_some,
      List.range_succ_eq_map,List.map_cons,List.map_map]
    congr 2
    apply List.map_congr_left
    intro k _
    exact Nat.zero_add _

theorem length_payload :
    T.payload.length=fileSizes F.fields*T.rows.length+T.strings.length := by
  have hrows : (T.rows.flatMap Row.encode).length=fileSizes F.fields*T.rows.length := by
    rw [List.length_flatMap]
    simp only [Row.length_encode,List.map_const',List.sum_replicate,smul_eq_mul]
    exact Nat.mul_comm _ _
  unfold Table.payload
  rw [List.length_append,hrows]

/-- A table whose file can be loaded whole. -/
def Table.Loadable : Prop :=
  F.fields≠[] ∧ 0 < T.payload.length ∧ T.payload.length < 2^32

/-- All of a file is loaded where there is a field, a record or a string, and the size has 32
bits. -/
theorem loads_iff (l : DBCFileLoader) :
    Load T.file F.fields=some (some l) ∧ l.data=T.payload ↔ T.Loadable ∧ l=T.loader := by
  have hlength := length_payload T
  unfold Load Table.Loadable
  rw [readHeader_file]
  dsimp only
  rw [← hlength]
  by_cases hempty : F.fields=[]
  · have hnone : makeFieldsOffset F.fields.length F.fields=none := by
      rw [hempty]
      rfl
    rw [hnone]
    simp only [Option.map_none,reduceCtorEq,false_and,hempty,ne_eq,not_true_eq_false]
  · rw [makeFieldsOffset_eq hempty F.small,Option.map_some]
    have hle : T.payload.length%UINT32 ≤ T.payload.length := Nat.mod_le _ _
    constructor
    · rintro ⟨hload,hdata⟩
      have hload := Option.some.inj hload
      split at hload
      · cases hload
      rename_i hfine
      have hloader := Option.some.inj hload
      obtain ⟨hpos,_⟩ := not_or.mp hfine
      have hwhole : T.payload.length%UINT32=T.payload.length := by
        have htake := congrArg List.length hdata
        rw [← hloader,List.length_take] at htake
        omega
      refine ⟨⟨hempty,by omega,?_⟩,?_⟩
      · rw [← hwhole]
        exact Nat.mod_lt _ (by unfold UINT32; omega)
      · rw [← hloader,hwhole,List.take_length]
        rfl
    · rintro ⟨⟨_,hpos,hlt⟩,rfl⟩
      have hwhole : T.payload.length%UINT32=T.payload.length := Nat.mod_eq_of_lt hlt
      refine ⟨?_,rfl⟩
      rw [hwhole,if_neg (by omega),List.take_length]
      rfl

end Loading

/-! ## Reading a field -/

section Reading

variable {F : Format} {T : Table F} {l : DBCFileLoader} {y x : ℕ} {c : Ft} {fmt : List Ft}

/-- From a field on the loader has the rest of a record. -/
def Reads (l : DBCFileLoader) (y x : ℕ) {fmt : List Ft} (row : Row fmt) : Prop :=
  ∃ offset rest,
    (∀ k < fmt.length,l.fieldsOffset[x+k]?=some (offset+fileSizes (fmt.take k))) ∧
      l.data.drop (y*l.recordSize+offset)=row.encode++rest

theorem Reads.tail {v : Fin (256^c.fileSize)} {row : Row fmt}
    (h : Reads l y x (.cons v row)) : Reads l y (x+1) row := by
  obtain ⟨offset,rest,hoffsets,hdata⟩ := h
  refine ⟨offset+c.fileSize,rest,?_,?_⟩
  · intro k hk
    have hnext := hoffsets (k+1) (Nat.succ_lt_succ hk)
    rw [show x+1+k=x+(k+1) by omega,hnext]
    congr 1
    change offset+(c.fileSize+fileSizes (fmt.take k))=_
    omega
  · have hdrop := congrArg (List.drop c.fileSize) hdata
    rw [List.drop_drop] at hdrop
    have hencode : (Row.cons v row).encode=leBytes c.fileSize v++row.encode := rfl
    rw [← Nat.add_assoc,hdrop,hencode,List.append_assoc]
    exact List.drop_left' (length_leBytes _ _)

theorem Reads.load {v : Fin (256^c.fileSize)} {row : Row fmt} (h : Reads l y x (.cons v row))
    {n : ℕ} (hsize : c.fileSize=n) :
    ((l.fieldsOffset[x]?).bind fun offset =>
      (ByteBlock.load l.data (y*l.recordSize+offset) n).map word)=some v.val := by
  subst hsize
  obtain ⟨offset,rest,hoffsets,hdata⟩ := h
  have hfirst := hoffsets 0 (Nat.succ_pos _)
  have hzero : fileSizes ((c::fmt).take 0)=0 := rfl
  rw [Nat.add_zero,hzero,Nat.add_zero] at hfirst
  rw [hfirst,Option.bind_some]
  unfold Row.encode at hdata
  rw [List.append_assoc] at hdata
  have hlength := congrArg List.length hdata
  rw [List.length_drop,List.length_append,length_leBytes] at hlength
  have hone := one_le_fileSize c
  unfold ByteBlock.load
  rw [if_pos (by omega),Option.map_some,hdata,List.take_left' (length_leBytes _ _),
    word_leBytes v.isLt]

theorem Reads.getUInt {v : Fin (256^c.fileSize)} {row : Row fmt} (h : Reads l y x (.cons v row))
    (hsize : c.fileSize=4) : l.getUInt y x=some v.val :=
  h.load hsize

theorem Reads.getUInt8 {v : Fin (256^c.fileSize)} {row : Row fmt} (h : Reads l y x (.cons v row))
    (hsize : c.fileSize=1) : l.getUInt8 y x=some v.val :=
  h.load hsize

/-- The records stand one behind the other. -/
theorem drop_flatMap (rows : List (Row fmt)) (hy : y < rows.length) :
    (rows.flatMap Row.encode).drop (y*fileSizes fmt)=
      rows[y].encode++(rows.drop (y+1)).flatMap Row.encode := by
  induction rows generalizing y with
  | nil => exact absurd hy (Nat.not_lt_zero y)
  | cons row rows ih =>
    cases y with
    | zero =>
      rw [Nat.zero_mul,List.drop_zero,List.flatMap_cons]
      rfl
    | succ y =>
      rw [List.flatMap_cons,Nat.succ_mul,Nat.add_comm,← List.drop_drop,
        List.drop_left' (Row.length_encode row)]
      exact ih (Nat.lt_of_succ_lt_succ hy)

/-- The loader has each record from its first field on. -/
theorem reads_loader (T : Table F) (hy : y < T.rows.length) : Reads T.loader y 0 T.rows[y] := by
  refine ⟨0,(T.rows.drop (y+1)).flatMap Row.encode++T.strings,?_,?_⟩
  · intro k hk
    rw [Nat.zero_add,Nat.zero_add]
    unfold Table.loader
    rw [List.getElem?_map,List.getElem?_range hk,Option.map_some]
  · have hrows := drop_flatMap T.rows hy
    have hle : y*fileSizes F.fields ≤ (T.rows.flatMap Row.encode).length := by
      by_contra hlong
      have hnil := List.drop_eq_nil_of_le (Nat.le_of_lt (not_le.mp hlong))
      rw [hrows] at hnil
      have hlength := congrArg List.length hnil
      have hpos := (length_le_fileSizes F.fields)
      rw [List.length_append,Row.length_encode,List.length_nil] at hlength
      have hsize : fileSizes F.fields=0 := by omega
      rw [hsize,Nat.mul_zero] at hlong
      exact hlong (Nat.zero_le _)
    change List.drop (y*fileSizes F.fields+0) T.payload=_
    unfold Table.payload
    rw [Nat.add_zero,List.drop_append_of_le_length hle,hrows,List.append_assoc]

end Reading

end Projectnelth.DbcModel
