import Mathlib
import Projectnelth.DbcTables
import Projectnelth.LastWrite

/-!
# What is made from the records

The structures stand one behind the other from the start of the data table, each with the fields
that are kept, and the table of pointers has the last of them at each place. Nothing is made where
a structure or a place is outside its block.
-/

namespace Projectnelth.DbcModel

open BitBytes ByteBlock LastWrite

variable {fmt : List Ft} {l : DBCFileLoader} {x y n : ℕ}

/-! ## The structure of a record -/

namespace Row

/-- The cells of the structure of a record, with the strings it has. -/
def entry : {fmt : List Ft} → Row fmt → List Ptr → List (Cell Ptr)
  | _,.nil,_ => []
  | c::_,.cons v rest,ptrs =>
    if c=.string then ofPointer (ptrs.headD .null)++rest.entry ptrs.tail
    else ofBytes (leBytes c.size v)++rest.entry ptrs

/-- The strings before they are set. -/
def nulls (row : Row fmt) : List Ptr := row.texts.map fun _ => .null

/-- The number at the index. -/
def id : {fmt : List Ft} → Row fmt → Option ℕ
  | _,.nil => none
  | c::_,.cons v rest => if c.isIndex then some v else rest.id

theorem structSize_cons (c : Ft) (fmt : List Ft) :
    structSize (c::fmt)=c.size+structSize fmt :=
  rfl

theorem entry_string {v : Fin (256^Ft.string.fileSize)} (row : Row fmt) (ptrs : List Ptr) :
    (Row.cons v row).entry ptrs=ofPointer (ptrs.headD .null)++row.entry ptrs.tail :=
  if_pos rfl

theorem entry_number {c : Ft} {v : Fin (256^c.fileSize)} (h : c≠.string) (row : Row fmt)
    (ptrs : List Ptr) :
    (Row.cons v row).entry ptrs=ofBytes (leBytes c.size v)++row.entry ptrs :=
  if_neg h

theorem length_entry (row : Row fmt) (ptrs : List Ptr) :
    (row.entry ptrs).length=structSize fmt := by
  induction row generalizing ptrs with
  | nil => rfl
  | @cons c fmt v rest ih =>
    rw [structSize_cons]
    by_cases h : c=.string
    · subst h
      rw [entry_string,List.length_append,length_ofPointer,ih]
      rfl
    · rw [entry_number h,List.length_append,length_ofBytes,length_leBytes,ih]

theorem texts_string {v : Fin (256^Ft.string.fileSize)} (row : Row fmt) :
    (Row.cons v row).texts=v.val::row.texts :=
  if_pos rfl

theorem texts_number {c : Ft} {v : Fin (256^c.fileSize)} (h : c≠.string) (row : Row fmt) :
    (Row.cons v row).texts=row.texts :=
  if_neg h

end Row

/-! ## Writing one -/

/-- The tables when so much of the data table is written and so many cells are left. -/
def Build.after (t : List Slot) (done : List (Cell Ptr)) (n : ℕ) : Build :=
  ⟨t,done++List.replicate n .undef,done.length⟩

section Writing

variable {t : List Slot} {done : List (Cell Ptr)}

theorem Build.write_after {cells : List (Cell Ptr)} (hsmall : done.length+n < 2^32) :
    (Build.after t done n).write cells=
      if cells.length ≤ n then some (Build.after t (done++cells) (n-cells.length)) else none := by
  unfold Build.write Build.after
  dsimp only
  rw [store_fresh]
  by_cases h : cells.length ≤ n
  · have hmod : (done.length+cells.length)%UINT32=done.length+cells.length := by
      unfold UINT32
      exact Nat.mod_eq_of_lt (by omega)
    rw [if_pos h,if_pos h,Option.map_some,hmod,← List.length_append]
  · rw [if_neg h,if_neg h]
    rfl

theorem produceField_after {c : Ft} {v : Fin (256^c.fileSize)} {row : Row fmt}
    (h : Reads l y x (.cons v row)) (hsmall : done.length+n < 2^32) :
    produceField l y x (Build.after t done n) c=
      (Build.after t done n).write
        (if c=.string then ofPointer .null else ofBytes (leBytes c.size v)) := by
  have hskip : (Build.after t done n).write []=some (Build.after t done n) := by
    have hle : ([] : List (Cell Ptr)).length ≤ n := Nat.zero_le n
    rw [Build.write_after hsmall,if_pos hle,List.append_nil]
    rfl
  cases c with
  | string => rfl
  | na => exact hskip.symm
  | naByte => exact hskip.symm
  | sort => exact hskip.symm
  | byte =>
    unfold produceField
    dsimp only
    rw [h.getUInt8 rfl]
    rfl
  | float =>
    unfold produceField
    dsimp only
    rw [h.getUInt rfl]
    rfl
  | int =>
    unfold produceField
    dsimp only
    rw [h.getUInt rfl]
    rfl
  | ind =>
    unfold produceField
    dsimp only
    rw [h.getUInt rfl]
    rfl

/-- The fields of a record are written where there is room for the structure. -/
theorem produceFields_after {row : Row fmt} (h : Reads l y x row)
    (hsmall : done.length+n < 2^32) :
    produceFields l y x fmt (Build.after t done n)=
      if structSize fmt ≤ n then
        some (Build.after t (done++row.entry row.nulls) (n-structSize fmt))
      else none := by
  induction row generalizing x done n with
  | nil =>
    have hle : structSize [] ≤ n := Nat.zero_le n
    rw [if_pos hle]
    unfold produceFields Row.entry
    rw [List.append_nil]
    rfl
  | @cons c fmt v row ih =>
    -- The cells of the field, and the structure as they and the rest.
    obtain ⟨cells,hcells⟩ : ∃ cells : List (Cell Ptr),
        (if c=.string then ofPointer .null else ofBytes (leBytes c.size v))=cells :=
      ⟨_,rfl⟩
    have hlength : cells.length=c.size := by
      rw [← hcells]
      split
      · rename_i hstring
        rw [length_ofPointer,hstring]
        rfl
      · rw [length_ofBytes,length_leBytes]
    have hentry : (Row.cons v row).entry (Row.cons v row).nulls=cells++row.entry row.nulls := by
      rw [← hcells]
      by_cases hstring : c=.string
      · subst hstring
        unfold Row.nulls
        rw [Row.entry_string,Row.texts_string,if_pos rfl]
        rfl
      · unfold Row.nulls
        rw [Row.entry_number hstring,Row.texts_number hstring,if_neg hstring]
    unfold produceFields
    rw [produceField_after h hsmall,hcells,Build.write_after hsmall,hentry,hlength,
      Row.structSize_cons]
    by_cases hfit : c.size ≤ n
    · have hnext : (done++cells).length+(n-c.size) < 2^32 := by
        rw [List.length_append,hlength]
        omega
      rw [if_pos hfit,Option.bind_some,ih h.tail hnext,List.append_assoc,Nat.sub_sub]
      by_cases hrest : c.size+structSize fmt ≤ n
      · rw [if_pos hrest,if_pos (by omega)]
      · rw [if_neg hrest,if_neg (by omega)]
    · rw [if_neg hfit,if_neg (by omega)]
      rfl

end Writing

/-! ## The index -/

/-- The place of the index, where a number of 32 bits with a sign holds it. -/
def Format.index (F : Format) : Option ℕ :=
  (F.fields.findIdx? Ft.isIndex).filter fun k => k < 2^31

theorem formatLoop_eq (recordsize : ℕ) (i : ℤ) (x : ℕ) (fmt : List Ft) (hr : recordsize < 2^32)
    (hsingle : (fmt.filter Ft.isIndex).length ≤ 1) :
    formatLoop recordsize i x fmt=
      ((recordsize+structSize fmt)%UINT32,
        ((fmt.findIdx? Ft.isIndex).map fun k => int32 (x+k)).getD i) := by
  induction fmt generalizing recordsize i x with
  | nil =>
    unfold formatLoop
    rw [show recordsize+structSize []=recordsize from rfl,
      Nat.mod_eq_of_lt (show recordsize < UINT32 from hr)]
    rfl
  | cons c fmt ih =>
    have hmod : (recordsize+c.size)%UINT32 < 2^32 := Nat.mod_lt _ (by decide)
    have hsize : ((recordsize+c.size)%UINT32+structSize fmt)%UINT32=
        (recordsize+structSize (c::fmt))%UINT32 := by
      rw [Nat.mod_add_mod,Row.structSize_cons,Nat.add_assoc]
    unfold formatLoop
    rw [List.findIdx?_cons]
    by_cases hc : c.isIndex=true
    · rw [List.filter_cons_of_pos hc,List.length_cons] at hsingle
      have hnone : fmt.findIdx? Ft.isIndex=none := by
        rw [List.findIdx?_eq_none_iff]
        intro d hd
        by_contra hindex
        have hmem := List.mem_filter.mpr ⟨hd,by simpa using hindex⟩
        have hpos := List.length_pos_of_mem hmem
        omega
      have hor : c=.sort ∨ c=.ind := by
        simpa only [Ft.isIndex,Bool.or_eq_true,decide_eq_true_eq] using hc
      rw [if_pos hor,ih _ _ _ hmod ((Nat.le_succ _).trans hsingle),hsize,hnone,if_pos hc]
      rfl
    · have hor : ¬(c=.sort ∨ c=.ind) := by
        simpa only [Ft.isIndex,Bool.or_eq_true,decide_eq_true_eq] using hc
      rw [List.filter_cons_of_neg hc] at hsingle
      rw [if_neg hor,ih _ _ _ hmod hsingle,hsize,if_neg hc,Option.map_map]
      congr 3
      funext k
      change int32 (x+1+k)=int32 (x+(k+1))
      congr 1
      omega

/-- A number with a sign tells the place of the index; it is negative where there is none. -/
def Format.IndexAt (F : Format) (i : ℤ) : Prop :=
  (0 ≤ i ∧ F.index=some i.toNat) ∨ (¬0 ≤ i ∧ F.index=none)

theorem GetFormatRecordSize_eq (F : Format) :
    ∃ i : ℤ,GetFormatRecordSize F.fields=(structSize F.fields%UINT32,i) ∧ F.IndexAt i := by
  have hloop := formatLoop_eq 0 (-1) 0 F.fields (by omega) F.single
  unfold GetFormatRecordSize Format.IndexAt Format.index
  rw [Nat.zero_add] at hloop
  refine ⟨_,hloop,?_⟩
  cases hfind : F.fields.findIdx? Ft.isIndex with
  | none =>
    right
    exact ⟨by decide,rfl⟩
  | some k =>
    have hk : k < 2^32 := by
      obtain ⟨hlt,_⟩ := List.findIdx?_eq_some_iff_getElem.mp hfind
      exact hlt.trans ((length_le_fileSizes F.fields).trans_lt F.small)
    rw [Option.map_some,Option.getD_some,Nat.zero_add]
    unfold int32
    by_cases hsmall : k < 2^31
    · left
      rw [if_pos hsmall]
      refine ⟨Int.natCast_nonneg k,?_⟩
      simp only [Option.filter_some,hsmall,decide_true,if_true,Int.toNat_natCast]
    · right
      rw [if_neg hsmall]
      constructor
      · omega
      · simp only [Option.filter_some,hsmall,decide_false,Bool.false_eq_true,if_false]

theorem Reads.id {row : Row fmt} (h : Reads l y x row) :
    row.id=(fmt.findIdx? Ft.isIndex).bind fun k => l.getUInt y (x+k) := by
  induction row generalizing x with
  | nil => rfl
  | @cons c fmt v row ih =>
    unfold Row.id
    rw [List.findIdx?_cons]
    by_cases hc : c.isIndex=true
    · have hsize : c.fileSize=4 := by
        cases c with
        | sort => rfl
        | ind => rfl
        | _ => cases hc
      rw [if_pos hc,if_pos hc,Option.bind_some,Nat.add_zero,h.getUInt hsize]
    · rw [if_neg hc,if_neg hc,ih h.tail,Option.bind_map]
      congr 1
      funext k
      change l.getUInt y (x+1+k)=l.getUInt y (x+(k+1))
      congr 1
      omega

theorem Row.id_ne_none {k : ℕ} (h : fmt.findIdx? Ft.isIndex=some k) (row : Row fmt) :
    row.id≠none := by
  induction row generalizing k with
  | nil => cases h
  | @cons c fmt v row ih =>
    unfold Row.id
    rw [List.findIdx?_cons] at h
    by_cases hc : c.isIndex=true
    · rw [if_pos hc]
      exact Option.some_ne_none _
    · rw [if_neg hc] at h ⊢
      obtain ⟨j,hj,_⟩ := Option.map_eq_some_iff.mp h
      exact ih hj

/-! ## All of the records -/

namespace Table

variable {F : Format} (T : Table F)

/-- The id of a record. -/
def idOf (y : ℕ) : ℕ := ((T.rows[y]?).bind Row.id).getD 0

/-- The place of a record in the table of pointers. -/
def keyOf (y : ℕ) : ℕ := if F.index.isSome then T.idOf y else y

/-- The largest id, or a larger one that is given. -/
def highest (sqlHighestIndex : ℕ) : ℕ :=
  ((List.range T.rows.length).map T.idOf).foldl max sqlHighestIndex

/-- The structures of the first records, before the strings are set. -/
def structures (n : ℕ) : List (Cell Ptr) :=
  (T.rows.take n).flatMap fun row => row.entry row.nulls

/-- The structure of a record in the table of pointers. -/
def slot (F : Format) (y : ℕ) : Slot := .row (y*structSize F.fields)

theorem length_structures {n : ℕ} (hn : n ≤ T.rows.length) :
    (T.structures n).length=n*structSize F.fields := by
  unfold structures
  rw [List.length_flatMap]
  simp only [Row.length_entry,List.map_const',List.sum_replicate,smul_eq_mul,List.length_take,
    Nat.min_eq_left hn]

theorem structures_succ {n : ℕ} (hn : n < T.rows.length) :
    T.structures (n+1)=T.structures n++T.rows[n].entry T.rows[n].nulls := by
  unfold structures
  rw [List.take_succ_eq_append_getElem hn,List.flatMap_append,List.flatMap_singleton]

/-- The place of the index is read as the id of the record. -/
theorem getUInt_id {k : ℕ} (hk : F.index=some k) (hy : y < T.rows.length) :
    T.loader.getUInt y k=some (T.idOf y) := by
  have hid := (reads_loader T hy).id
  unfold Format.index at hk
  obtain ⟨hfind,_⟩ := Option.filter_eq_some_iff.mp hk
  rw [hfind,Option.bind_some,Nat.zero_add] at hid
  unfold idOf
  rw [List.getElem?_eq_getElem hy,Option.bind_some,hid]
  cases hread : T.loader.getUInt y k with
  | some v => rfl
  | none =>
    exfalso
    rw [hread] at hid
    exact Row.id_ne_none hfind T.rows[y] hid

/-- The loop for the highest index has the largest id, and then the one that is given. -/
theorem maxIndex_eq {k : ℕ} (hk : F.index=some k) (high : ℕ) :
    (maxIndex T.loader k).map (max · high)=some (T.highest high) := by
  have hloop : ∀ n ≤ T.rows.length,∀ maxi,
      (List.range n).foldlM (fun maxi y => (T.loader.getUInt y k).map (max maxi)) maxi=
        some (((List.range n).map T.idOf).foldl max maxi) := by
    intro n hn maxi
    induction n with
    | zero => rfl
    | succ n ih =>
      rw [List.range_succ,List.foldlM_append,ih (Nat.le_of_succ_le hn),List.map_append,
        List.foldl_append]
      change ([n].foldlM (fun maxi y => (T.loader.getUInt y k).map (max maxi)) _ : Option ℕ)=_
      rw [List.foldlM_cons,T.getUInt_id hk hn]
      rfl
  unfold maxIndex highest
  rw [show T.loader.recordCount=T.rows.length from rfl,hloop _ (Nat.le_refl _),Option.map_some,
    max_comm]
  have hassoc : ((List.range T.rows.length).map T.idOf).foldl max (max high 0)=
      max high (((List.range T.rows.length).map T.idOf).foldl max 0) :=
    List.foldl_assoc
  rw [← hassoc,Nat.max_zero]

/-- The table of pointers before the records are gone through. -/
def newSlots (sqlRecordCount sqlHighestIndex : ℕ) : List Slot :=
  if F.index.isSome then List.replicate ((T.highest sqlHighestIndex+1)%UINT32) .null
  else List.replicate ((T.rows.length+sqlRecordCount)%UINT32) .undef

theorem newIndexTable_eq {i : ℤ}
    (hi : F.IndexAt i) (sql high : ℕ) :
    newIndexTable T.loader i sql high=
      some ((T.newSlots sql high).length,T.newSlots sql high) := by
  unfold newIndexTable newSlots
  rcases hi with ⟨hi,hindex⟩ | ⟨hi,hindex⟩
  · rw [if_pos hi,hindex]
    have hmax := T.maxIndex_eq hindex high
    obtain ⟨maxi,hmaxi,hhigh⟩ := Option.map_eq_some_iff.mp hmax
    rw [hmaxi,Option.map_some,hhigh]
    simp only [Option.isSome_some,if_true,List.length_replicate]
  · rw [if_neg hi,hindex]
    simp only [Option.isSome_none,Bool.false_eq_true,if_false,List.length_replicate]
    rfl

/-- A record is written where there is room for its structure and a place for its pointer. -/
theorem produceRecord_after {i : ℤ} {t : List Slot} {done : List (Cell Ptr)}
    (hi : F.IndexAt i) (hy : y < T.rows.length)
    (hsmall : done.length+n < 2^32) :
    produceRecord T.loader F.fields i (Build.after t done n) y=
      if T.keyOf y < t.length ∧ structSize F.fields ≤ n then
        some (Build.after (t.set (T.keyOf y) (.row done.length))
          (done++T.rows[y].entry T.rows[y].nulls) (n-structSize F.fields))
      else none := by
  have hkey : (if 0 ≤ i then T.loader.getUInt y i.toNat else some y)=some (T.keyOf y) := by
    unfold keyOf
    rcases hi with ⟨hi,hindex⟩ | ⟨hi,hindex⟩
    · rw [if_pos hi,T.getUInt_id hindex hy,hindex]
      rfl
    · rw [if_neg hi,hindex]
      rfl
  unfold produceRecord
  rw [hkey,Option.bind_some]
  unfold Build.point
  by_cases hlt : T.keyOf y < t.length
  · have hfields := produceFields_after (t := t.set (T.keyOf y) (.row done.length))
      (reads_loader T hy) hsmall
    rw [if_pos (show T.keyOf y < (Build.after t done n).indexTable.length from hlt),
      Option.bind_some]
    refine hfields.trans ?_
    by_cases hfit : structSize F.fields ≤ n
    · rw [if_pos hfit,if_pos ⟨hlt,hfit⟩]
    · rw [if_neg hfit,if_neg (fun h => hfit h.2)]
  · rw [if_neg (show ¬T.keyOf y < (Build.after t done n).indexTable.length from hlt),
      if_neg (fun h => hlt h.1)]
    rfl

theorem produceRecords_eq {i : ℤ} {t : List Slot} {size : ℕ}
    (hi : F.IndexAt i) (hsize : size < 2^32)
    (hn : n ≤ T.rows.length) :
    (List.range n).foldlM (produceRecord T.loader F.fields i) (Build.after t [] size)=
      if (∀ y < n,T.keyOf y < t.length) ∧ n*structSize F.fields ≤ size then
        some (Build.after (writes T.keyOf (slot F) n t) (T.structures n)
          (size-n*structSize F.fields))
      else none := by
  induction n with
  | zero =>
    rw [if_pos ⟨fun y hy => absurd hy (Nat.not_lt_zero y),by omega⟩,Nat.zero_mul]
    rfl
  | succ n ih =>
    rw [List.range_succ,List.foldlM_append,ih (Nat.le_of_succ_le hn)]
    by_cases hbefore : (∀ y < n,T.keyOf y < t.length) ∧ n*structSize F.fields ≤ size
    · obtain ⟨hkeys,hfit⟩ := hbefore
      have hlength := T.length_structures (Nat.le_of_succ_le hn)
      rw [if_pos ⟨hkeys,hfit⟩]
      change ([n].foldlM (produceRecord T.loader F.fields i) _ : Option Build)=_
      rw [List.foldlM_cons,T.produceRecord_after hi hn (by rw [hlength]; omega),length_writes,
        hlength,Nat.succ_mul]
      by_cases hnow : T.keyOf n < t.length ∧
          structSize F.fields ≤ size-n*structSize F.fields
      · have hall : (∀ y < n+1,T.keyOf y < t.length) ∧
            n*structSize F.fields+structSize F.fields ≤ size := by
          refine ⟨?_,by omega⟩
          intro y hy
          rcases Nat.lt_succ_iff_lt_or_eq.mp hy with hy | hy
          · exact hkeys y hy
          · rw [hy]
            exact hnow.1
        rw [if_pos hnow,if_pos hall,T.structures_succ hn,writes_succ,Nat.sub_sub]
        rfl
      · rw [if_neg hnow,if_neg]
        · rfl
        · rintro ⟨hall,hroom⟩
          exact hnow ⟨hall n (Nat.lt_succ_self n),by omega⟩
    · rw [if_neg hbefore,if_neg]
      · rfl
      · rintro ⟨hall,hroom⟩
        rw [Nat.succ_mul] at hroom
        exact hbefore ⟨fun y hy => hall y (Nat.lt_succ_of_lt hy),by omega⟩

/-- The size of the data table. -/
def dataSize (sqlRecordCount : ℕ) : ℕ :=
  (T.rows.length+sqlRecordCount)*structSize F.fields%2^32

/-- All that `AutoProduceData` needs: a place for each pointer and room for each structure. -/
def Room (sqlRecordCount sqlHighestIndex : ℕ) : Prop :=
  (∀ y < T.rows.length,T.keyOf y < (T.newSlots sqlRecordCount sqlHighestIndex).length) ∧
    T.rows.length*structSize F.fields ≤ T.dataSize sqlRecordCount

/-- What `AutoProduceData` makes where there is room. -/
def produced (sqlRecordCount sqlHighestIndex : ℕ) : Produced where
  records := (T.newSlots sqlRecordCount sqlHighestIndex).length
  indexTable := writes T.keyOf (slot F) T.rows.length (T.newSlots sqlRecordCount sqlHighestIndex)
  dataTable := T.structures T.rows.length++
    List.replicate (T.dataSize sqlRecordCount-T.rows.length*structSize F.fields) .undef
  sqlDataTable := T.rows.length*structSize F.fields

theorem produces (sql high : ℕ) :
    (T.Room sql high →
      T.loader.AutoProduceData F.fields sql high=some (some (T.produced sql high))) ∧
    (¬T.Room sql high → T.loader.AutoProduceData F.fields sql high=none) := by
  obtain ⟨i,hformat,hi⟩ := GetFormatRecordSize_eq F
  have hsize : (T.rows.length+sql)%UINT32*(structSize F.fields%UINT32)%UINT32=
      T.dataSize sql := by
    rw [← Nat.mul_mod]
    rfl
  have hdata : T.loader.AutoProduceData F.fields sql high=
      ((List.range T.rows.length).foldlM (produceRecord T.loader F.fields i)
        (Build.after (T.newSlots sql high) [] (T.dataSize sql))).map fun b =>
          some ⟨(T.newSlots sql high).length,b.indexTable,b.dataTable,b.offset⟩ := by
    unfold DBCFileLoader.AutoProduceData
    rw [if_neg (show ¬F.fields.length≠T.loader.fieldCount from fun h => h rfl),hformat]
    dsimp only
    rw [T.newIndexTable_eq hi,Option.bind_some]
    rw [← hsize]
    rfl
  have hsmall : T.dataSize sql < 2^32 := Nat.mod_lt _ (by decide)
  rw [hdata,T.produceRecords_eq hi hsmall (Nat.le_refl T.rows.length)]
  constructor
  · intro hroom
    unfold Room at hroom
    rw [if_pos hroom,Option.map_some]
    unfold produced Build.after
    dsimp only
    rw [T.length_structures (Nat.le_refl _)]
  · intro hroom
    unfold Room at hroom
    rw [if_neg hroom]
    rfl

end Table

end Projectnelth.DbcModel
