import Mathlib
import Projectnelth.DbcStrings

/-!
# Tables that load faithfully

A table is loaded faithfully when its pointers, its structures and its strings are those of the
file, and the file of another locale changes empty strings only. It is so exactly where all sizes
have 32 bits, the file is not empty behind the header, and the other file has no string behind the
structures.
-/

namespace Projectnelth.DbcModel

open BitBytes ByteBlock LastWrite

variable {F : Format}

namespace Table

variable (T L : Table F) (sqlRecordCount sqlHighestIndex : Fin (2^32))

/-! ## What a table is for -/

/-- The table of pointers by ids: the last record with each of them. -/
def idTable (sqlHighestIndex : ℕ) : List Slot :=
  (List.range (T.highest sqlHighestIndex+1)).map fun i =>
    ((last T.idOf T.rows.length i).map (slot F)).getD .null

/-- The table of pointers by the order of records, with places for those of the database. -/
def orderTable (sqlRecordCount : ℕ) : List Slot :=
  ((List.range T.rows.length).map (slot F)).append (List.replicate sqlRecordCount .undef)

/-- The table of pointers. -/
def pointers (sqlRecordCount sqlHighestIndex : ℕ) : List Slot :=
  if (F.fields.findIdx? Ft.isIndex).isSome then T.idTable sqlHighestIndex
  else T.orderTable sqlRecordCount

/-- The structure of each record has these strings. -/
def Holds (m : Memory) (strings : ℕ → List Ptr) : Prop :=
  ∀ y (hy : y < T.rows.length),
    load m.dataTable (y*structSize F.fields) (structSize F.fields)=
      some (T.rows[y].entry (strings y))

/-- The strings of a record of the table. -/
def stringsOf (y : ℕ) : List Ptr := ((T.rows[y]?).map fun row => row.texts.map (.pool 0)).getD []

/-- A string is that of the table, where the text of the table is not empty. -/
def Kept (v : ℕ) (p : Ptr) : Prop := p=.pool 0 v ∨ T.strings[v]?=some 0

/-- The table is loaded, and then the strings of another one. -/
structure Loaded (l other : DBCFileLoader) (p : Produced) (m m' : Memory) : Prop where
  load_eq : Load T.file F.fields=some (some l)
  /-- All of it. -/
  data_eq : l.data=T.payload
  load_other : Load L.file F.fields=some (some other)
  data_other : other.data=L.payload
  /-- The structures are made. -/
  produced : l.AutoProduceData F.fields sqlRecordCount sqlHighestIndex=some (some p)
  /-- Their strings are set. -/
  strings : l.AutoProduceStrings F.fields ⟨p.dataTable,[]⟩=some (some m)
  /-- And once more. -/
  strings_other : other.AutoProduceStrings F.fields m=some (some m')

/-- After the strings of another table, those that are not empty are the same. -/
def KeepsStrings (m m' : Memory) : Prop :=
  m'.pools[0]?=some T.strings ∧
    (∃ strings,T.Holds m' strings ∧
      ∀ y (hy : y < T.rows.length),List.Forall₂ T.Kept T.rows[y].texts (strings y)) ∧
    m'.dataTable.drop (T.rows.length*structSize F.fields)=
      m.dataTable.drop (T.rows.length*structSize F.fields)

/-- All is as the files have it. -/
def Faithful : Prop :=
  ∃ l other p m m',T.Loaded L sqlRecordCount sqlHighestIndex l other p m m' ∧
    (p.indexTable=T.pointers sqlRecordCount sqlHighestIndex ∧ p.records=p.indexTable.length) ∧
    (m.pools[0]?=some T.strings ∧ T.Holds m T.stringsOf) ∧ T.KeepsStrings m m'

/-- The table of pointers has a size of 32 bits. An index at a place that no number with a sign can
tell is none, so that the ids have to be the order. -/
def PointersFit : Prop :=
  match F.fields.findIdx? Ft.isIndex with
  | none => T.rows.length+sqlRecordCount < 2^32
  | some k =>
    if k < 2^31 then T.highest sqlHighestIndex+1 < 2^32
    else T.rows.length+sqlRecordCount < 2^32 ∧
      T.idTable sqlHighestIndex=T.orderTable sqlRecordCount

/-- Where it is so. -/
structure Fits : Prop where
  /-- The file can be loaded whole. -/
  loadable : T.Loadable
  loadable_other : L.Loadable
  /-- The structures are not larger than 32 bits can tell. -/
  room : T.rows.length*structSize F.fields ≤ T.dataSize sqlRecordCount
  /-- Each record has a place in the table of pointers. -/
  pointers : T.PointersFit sqlRecordCount sqlHighestIndex
  records : .string∉F.fields ∨ L.rows.length ≤ T.rows.length

/-! ## The table of pointers -/

theorem le_foldl_max {a : ℕ} {list : List ℕ} {init : ℕ} (h : a∈list) :
    a ≤ list.foldl max init := by
  induction list generalizing init with
  | nil => cases h
  | cons b list ih =>
    rw [List.foldl_cons]
    rcases List.mem_cons.mp h with rfl | h
    · have hassoc : list.foldl max (max a init)=max a (list.foldl max init) := List.foldl_assoc
      rw [max_comm init a,hassoc]
      exact le_max_left _ _
    · exact ih h

theorem idOf_le_highest {y : ℕ} (hy : y < T.rows.length) (high : ℕ) :
    T.idOf y ≤ T.highest high :=
  le_foldl_max (List.mem_map_of_mem (List.mem_range.mpr hy))

/-- The order of the records is kept where each has a place. -/
theorem writes_order (sql : ℕ) :
    writes (fun y => y) (slot F) T.rows.length (List.replicate (T.rows.length+sql) .undef)=
      T.orderTable sql := by
  rw [writes_replicate]
  unfold orderTable
  rw [List.range_add,List.map_append]
  congr 1
  · apply List.map_congr_left
    intro i hi
    rw [last_self,if_pos (List.mem_range.mp hi)]
    rfl
  · rw [List.map_map]
    apply List.ext_getElem
    · rw [List.length_map,List.length_range,List.length_replicate]
    intro i hi _
    rw [List.getElem_map,List.getElem_range,List.getElem_replicate]
    change ((last (fun y => y) T.rows.length (T.rows.length+i)).map (slot F)).getD .undef=_
    rw [last_self,if_neg (by omega)]
    rfl

/-- Each record has a place in the order where the number of all places has 32 bits. -/
theorem places_iff (sql : Fin (2^32)) :
    (∀ y < T.rows.length,y < (T.rows.length+sql)%UINT32) ↔ T.rows.length+sql < 2^32 := by
  have hrows := T.rows_lt
  have hsql := sql.isLt
  unfold UINT32
  constructor
  · intro h
    by_contra hlong
    have hlast := h (T.rows.length-1) (by omega)
    omega
  · intro h y hy
    rw [Nat.mod_eq_of_lt h]
    omega

theorem pointers_iff :
    ((∀ y < T.rows.length,
        T.keyOf y < (T.newSlots sqlRecordCount sqlHighestIndex).length) ∧
      writes T.keyOf (slot F) T.rows.length (T.newSlots sqlRecordCount sqlHighestIndex)=
        T.pointers sqlRecordCount sqlHighestIndex) ↔
      T.PointersFit sqlRecordCount sqlHighestIndex := by
  -- Without an index that is used, a record has the place of its number.
  have hnone : F.index=none → T.keyOf=(fun y => y) ∧
      T.newSlots sqlRecordCount sqlHighestIndex=
        List.replicate ((T.rows.length+sqlRecordCount)%UINT32) .undef := by
    intro h
    unfold newSlots
    refine ⟨?_,?_⟩
    · funext y
      unfold keyOf
      rw [h]
      rfl
    · rw [h]
      rfl
  unfold PointersFit pointers
  cases hfind : F.fields.findIdx? Ft.isIndex with
  | none =>
    obtain ⟨hkey,hslots⟩ := hnone (by unfold Format.index; rw [hfind]; rfl)
    rw [hkey,hslots,List.length_replicate]
    dsimp only
    rw [T.places_iff]
    constructor
    · exact fun h => h.1
    intro h
    refine ⟨h,?_⟩
    rw [Nat.mod_eq_of_lt (show _ < UINT32 from h)]
    exact T.writes_order _
  | some k =>
    dsimp only
    by_cases hk : k < 2^31
    · have hindex : F.index=some k := by
        unfold Format.index
        rw [hfind]
        simp only [Option.filter_some,hk,decide_true,if_true]
      have hkey : T.keyOf=T.idOf := by
        funext y
        unfold keyOf
        rw [hindex]
        rfl
      have hslots : T.newSlots sqlRecordCount sqlHighestIndex=
          List.replicate ((T.highest sqlHighestIndex+1)%UINT32) .null := by
        unfold newSlots
        rw [hindex]
        rfl
      rw [hkey,hslots,List.length_replicate,writes_replicate,if_pos hk]
      change _ ∧ _=T.idTable _ ↔ _
      unfold idTable
      constructor
      · intro ⟨_,htable⟩
        have hlength := congrArg List.length htable
        rw [List.length_map,List.length_map,List.length_range,List.length_range] at hlength
        rw [← hlength]
        exact Nat.mod_lt _ (by decide)
      · intro h
        rw [Nat.mod_eq_of_lt (show _ < UINT32 from h)]
        refine ⟨?_,rfl⟩
        intro y hy
        exact Nat.lt_succ_of_le (T.idOf_le_highest hy _)
    · obtain ⟨hkey,hslots⟩ := hnone (by
        unfold Format.index
        rw [hfind]
        simp only [Option.filter_some,hk,decide_false,Bool.false_eq_true,if_false])
      rw [hkey,hslots,List.length_replicate,if_neg hk,T.places_iff]
      apply and_congr_right
      intro h
      rw [Nat.mod_eq_of_lt (show _ < UINT32 from h),T.writes_order]
      exact eq_comm

/-! ## The strings -/

/-- The records with their strings before they are set. -/
def rowsNull : List (Row F.fields×List Ptr) := T.rows.map fun row => (row,row.nulls)

/-- The records with their strings. -/
def rowsSet : List (Row F.fields×List Ptr) :=
  T.rows.map fun row => (row,row.texts.map (.pool 0))

theorem stringsOf_eq {y : ℕ} (hy : y < T.rows.length) :
    T.stringsOf y=T.rows[y].texts.map (.pool 0) := by
  unfold stringsOf
  rw [List.getElem?_eq_getElem hy]
  rfl

theorem length_rowsSet : T.rowsSet.length=T.rows.length := List.length_map _

theorem getElem_rowsSet {y : ℕ} (hy : y < T.rows.length) (hy' : y < T.rowsSet.length) :
    T.rowsSet[y]=(T.rows[y],T.stringsOf y) := by
  rw [T.stringsOf_eq hy]
  exact List.getElem_map _

theorem structures_eq : T.structures T.rows.length=entries T.rowsNull := by
  unfold structures entries rowsNull
  rw [List.take_length,List.flatMap_map]

theorem ready_null (pools : List (List UInt8)) : ∀ r∈T.rowsNull,Ready pools r.1 r.2 := by
  intro r hr
  obtain ⟨row,_,rfl⟩ := List.mem_map.mp hr
  constructor
  · exact List.length_map _
  · intro p hp
    obtain ⟨v,_,rfl⟩ := List.mem_map.mp hp
    rfl

theorem blank_text {v : ℕ} (hv : v < T.strings.length) :
    blank [T.strings] (.pool 0 v)=some (decide (T.strings[v]=0)) := by
  change ((T.strings[v]?).map fun c => decide (c=0))=_
  rw [List.getElem?_eq_getElem hv]
  rfl

theorem ready_set : ∀ r∈T.rowsSet,Ready ([T.strings]++[L.strings]) r.1 r.2 := by
  intro r hr
  obtain ⟨row,hrow,rfl⟩ := List.mem_map.mp hr
  constructor
  · exact List.length_map _
  intro p hp
  obtain ⟨v,hv,rfl⟩ := List.mem_map.mp hp
  rw [blank_append (T.blank_text (T.texts row hrow v hv))]
  rfl

/-- The first pass sets all strings. -/
theorem refillAll_null (rows : List (Row F.fields)) (pools : List (List UInt8)) :
    refillAll pools 0 (rows.map fun row => (row,row.nulls)) rows=
      rows.map fun row => (row,row.texts.map (.pool 0)) := by
  induction rows with
  | nil => rfl
  | cons row rows ih =>
    rw [List.map_cons,List.map_cons]
    unfold refillAll
    rw [ih]
    congr 2
    unfold refill Row.nulls
    rw [List.zipWith_map_left,List.zipWith_self]
    rfl

/-- Two records of a format have as many strings. -/
theorem length_texts {fmt : List Ft} (row other : Row fmt) :
    row.texts.length=other.texts.length := by
  induction row with
  | nil =>
    cases other with
    | nil => rfl
  | @cons c fmt v row ih =>
    cases other with
    | cons w other =>
      by_cases hc : c=.string
      · subst hc
        rw [Row.texts_string,Row.texts_string,List.length_cons,List.length_cons,ih other]
      · rw [Row.texts_number hc,Row.texts_number hc,ih other]

/-- The second pass keeps the strings that are not empty. -/
theorem kept_refill {texts others : List ℕ} (h : ∀ v∈texts,v < T.strings.length)
    (hlength : texts.length=others.length) :
    List.Forall₂ T.Kept texts
      (refill ([T.strings]++[L.strings]) 1 (texts.map (.pool 0)) others) := by
  induction texts generalizing others with
  | nil => exact List.Forall₂.nil
  | cons v texts ih =>
    cases others with
    | nil => cases hlength
    | cons w others =>
      have hv := h v (List.mem_cons_self ..)
      have hrest := ih (fun v hv => h v (List.mem_cons_of_mem _ hv)) (Nat.succ.inj hlength)
      refine List.Forall₂.cons ?_ hrest
      unfold filled
      rw [blank_append (T.blank_text hv)]
      by_cases hempty : T.strings[v]=0
      · right
        rw [List.getElem?_eq_getElem hv,hempty]
      · left
        rw [if_neg]
        simpa using hempty

theorem kept_same (texts : List ℕ) : List.Forall₂ T.Kept texts (texts.map (.pool 0)) := by
  induction texts with
  | nil => exact List.Forall₂.nil
  | cons v texts ih => exact List.Forall₂.cons (Or.inl rfl) ih

theorem load_entries {rows : List (Row F.fields×List Ptr)} (after : List (Cell Ptr)) {y : ℕ}
    (hy : y < rows.length) :
    load (entries rows++after) (y*structSize F.fields) (structSize F.fields)=
      some (rows[y].1.entry rows[y].2) := by
  have hsplit : rows=rows.take y++rows[y]::rows.drop (y+1) := by
    rw [← List.drop_eq_getElem_cons hy,List.take_append_drop]
  have hblock : entries rows++after=
      entries (rows.take y)++(rows[y].1.entry rows[y].2++(entries (rows.drop (y+1))++after)) := by
    have hentries := congrArg entries hsplit
    unfold entries at hentries ⊢
    rw [List.flatMap_append,List.flatMap_cons] at hentries
    rw [hentries,List.append_assoc,List.append_assoc]
  have hplace : (entries (rows.take y)).length=y*structSize F.fields := by
    rw [length_entries,List.length_take,Nat.min_eq_left (Nat.le_of_lt hy)]
  have hload := load_part (entries (rows.take y)) (rows[y].1.entry rows[y].2)
    (entries (rows.drop (y+1))++after)
  rw [hplace,Row.length_entry] at hload
  rw [hblock]
  exact hload

/-- What the strings of records are when those of others were gone through. -/
theorem getElem_refillAll {pools : List (List UInt8)} {id : ℕ}
    (rows : List (Row F.fields×List Ptr)) (others : List (Row F.fields)) {y : ℕ}
    (hy : y < rows.length) (hy' : y < (refillAll pools id rows others).length) :
    (refillAll pools id rows others)[y]=(rows[y].1,
      ((others[y]?).map fun other => refill pools id rows[y].2 other.texts).getD rows[y].2) := by
  induction rows generalizing others y with
  | nil => cases hy
  | cons r rows ih =>
    cases others with
    | nil => rfl
    | cons other others =>
      cases y with
      | zero => rfl
      | succ y => exact ih others (Nat.lt_of_succ_lt_succ hy) (Nat.lt_of_succ_lt_succ hy')

/-! ## Both passes -/

/-- The data table and the strings after the first pass. -/
def memory (sqlRecordCount : ℕ) : Memory :=
  ⟨entries T.rowsSet++List.replicate
    (T.dataSize sqlRecordCount-T.rows.length*structSize F.fields) .undef,[T.strings]⟩

variable {T L}

theorem small_of_room {sql : ℕ} (h : T.rows.length*structSize F.fields ≤ T.dataSize sql) :
    T.rows.length*structSize F.fields < 2^32 :=
  h.trans_lt (Nat.mod_lt _ (by decide))

theorem strings_first {sql high : ℕ} (hT : T.Loadable)
    (hroom : T.rows.length*structSize F.fields ≤ T.dataSize sql) :
    T.loader.AutoProduceStrings F.fields ⟨(T.produced sql high).dataTable,[]⟩=
      some (some (T.memory sql)) := by
  have hlength : T.rowsNull.length=T.rows.length := List.length_map _
  have hfit := strings_fit hT
    (List.replicate (T.dataSize sql-T.rows.length*structSize F.fields) .undef)
    (Nat.le_of_eq hlength.symm) (T.ready_null ([]++[T.strings]))
    (by rw [hlength]; exact small_of_room hroom)
  unfold produced memory
  dsimp only
  rw [T.structures_eq,hfit]
  unfold rowsNull rowsSet
  rw [List.length_nil,refillAll_null]
  rfl

theorem holds_first (sql : ℕ) : T.Holds (T.memory sql) T.stringsOf := by
  intro y hy
  have hlength : y < T.rowsSet.length := by
    rw [T.length_rowsSet]
    exact hy
  have hload := load_entries (List.replicate
    (T.dataSize sql-T.rows.length*structSize F.fields) .undef) hlength
  rw [T.getElem_rowsSet hy hlength] at hload
  exact hload

/-- Another table with no more records keeps the strings that are not empty. -/
theorem strings_second {sql : ℕ} (hL : L.Loadable)
    (hroom : T.rows.length*structSize F.fields ≤ T.dataSize sql)
    (hle : L.rows.length ≤ T.rows.length) :
    ∃ m',L.loader.AutoProduceStrings F.fields (T.memory sql)=some (some m') ∧
      T.KeepsStrings (T.memory sql) m' := by
  have hfit := strings_fit hL
    (List.replicate (T.dataSize sql-T.rows.length*structSize F.fields) .undef)
    (by rw [T.length_rowsSet]; exact hle) (T.ready_set L)
    (by rw [T.length_rowsSet]; exact small_of_room hroom)
  have hcount : (refillAll ([T.strings]++[L.strings]) 1 T.rowsSet L.rows).length=
      T.rows.length := by
    rw [length_refillAll,T.length_rowsSet]
  refine ⟨_,hfit,rfl,?_,?_⟩
  · refine ⟨fun y => ((L.rows[y]?).map fun other =>
      refill ([T.strings]++[L.strings]) 1 (T.stringsOf y) other.texts).getD (T.stringsOf y),?_,?_⟩
    · intro y hy
      have hset : y < T.rowsSet.length := by
        rw [T.length_rowsSet]
        exact hy
      have hrefilled : y < (refillAll ([T.strings]++[L.strings]) 1 T.rowsSet L.rows).length := by
        rw [hcount]
        exact hy
      have hload := load_entries (List.replicate
        (T.dataSize sql-T.rows.length*structSize F.fields) .undef) hrefilled
      rw [getElem_refillAll T.rowsSet L.rows hset,T.getElem_rowsSet hy hset] at hload
      exact hload
    · intro y hy
      have htexts := T.texts T.rows[y] (List.getElem_mem hy)
      dsimp only
      rw [T.stringsOf_eq hy]
      cases hother : L.rows[y]? with
      | none => exact T.kept_same _
      | some other => exact T.kept_refill L htexts (length_texts _ _)
  · have hset : (entries T.rowsSet).length=T.rows.length*structSize F.fields := by
      rw [length_entries,T.length_rowsSet]
    have hrefilled : (entries (refillAll ([T.strings]++[L.strings]) 1 T.rowsSet L.rows)).length=
        T.rows.length*structSize F.fields := by
      rw [length_entries,hcount]
    unfold memory
    dsimp only
    rw [List.drop_left' hset]
    exact List.drop_left' hrefilled

/-- Another table without a string keeps all strings. -/
theorem strings_second_none {sql : ℕ} (hL : L.Loadable) (h : .string∉F.fields) :
    ∃ m',L.loader.AutoProduceStrings F.fields (T.memory sql)=some (some m') ∧
      T.KeepsStrings (T.memory sql) m' := by
  refine ⟨_,strings_none hL h _,rfl,⟨T.stringsOf,holds_first sql,?_⟩,rfl⟩
  intro y hy
  rw [T.stringsOf_eq hy]
  exact T.kept_same _

/-- Another table with more records and a string is not gone through. -/
theorem strings_second_long {sql : ℕ} (hL : L.Loadable) (h : .string∈F.fields)
    (hroom : T.rows.length*structSize F.fields ≤ T.dataSize sql)
    (hlong : T.rows.length < L.rows.length) :
    L.loader.AutoProduceStrings F.fields (T.memory sql)=none := by
  exact strings_long hL h _ (by rw [T.length_rowsSet]; exact hlong) (T.ready_set L)
    (by rw [T.length_rowsSet]; exact small_of_room hroom)

/-! ## Where tables load faithfully -/

/-- Places and room are what `AutoProduceData` needs. -/
theorem produced_iff (sql high : Fin (2^32)) (p : Produced) :
    (T.loader.AutoProduceData F.fields sql high=some (some p) ∧
      p.indexTable=T.pointers sql high) ↔
      T.PointersFit sql high ∧ T.rows.length*structSize F.fields ≤ T.dataSize sql ∧
        p=T.produced sql high := by
  obtain ⟨hsome,hnone⟩ := T.produces sql high
  have hpointers := T.pointers_iff sql high
  constructor
  · rintro ⟨hdata,htable⟩
    by_cases hroom : T.Room sql high
    · rw [hsome hroom] at hdata
      have hp := Option.some.inj (Option.some.inj hdata)
      obtain ⟨hkeys,hfit⟩ := hroom
      rw [← hp] at htable
      exact ⟨hpointers.mp ⟨hkeys,htable⟩,hfit,hp.symm⟩
    · rw [hnone hroom] at hdata
      cases hdata
  · rintro ⟨hfit,hroom,rfl⟩
    obtain ⟨hkeys,htable⟩ := hpointers.mpr hfit
    exact ⟨hsome ⟨hkeys,hroom⟩,htable⟩

/-- Tables load faithfully exactly where they fit. -/
theorem faithful_iff (T L : Table F) (sqlRecordCount sqlHighestIndex : Fin (2^32)) :
    T.Faithful L sqlRecordCount sqlHighestIndex ↔ T.Fits L sqlRecordCount sqlHighestIndex := by
  constructor
  · rintro ⟨l,other,p,m,m',h,⟨htable,_⟩,_⟩
    obtain ⟨hT,hl⟩ := (loads_iff T l).mp ⟨h.load_eq,h.data_eq⟩
    obtain ⟨hL,hother⟩ := (loads_iff L other).mp ⟨h.load_other,h.data_other⟩
    have hdata := h.produced
    rw [hl] at hdata
    obtain ⟨hpointers,hroom,hp⟩ := (produced_iff _ _ p).mp ⟨hdata,htable⟩
    refine ⟨hT,hL,hroom,hpointers,?_⟩
    by_contra hlong
    obtain ⟨hstring,hrecords⟩ := not_or.mp hlong
    -- The first pass has one result only, and the second one gets stuck on it.
    have hfirst := h.strings
    rw [hl,hp,strings_first hT hroom] at hfirst
    have hm := Option.some.inj (Option.some.inj hfirst)
    have hsecond := h.strings_other
    rw [hother,← hm,strings_second_long hL (not_not.mp hstring) hroom (not_le.mp hrecords)]
      at hsecond
    cases hsecond
  · rintro ⟨hT,hL,hroom,hpointers,hrecords⟩
    obtain ⟨hload,hdata⟩ := (loads_iff T T.loader).mpr ⟨hT,rfl⟩
    obtain ⟨hloadOther,hdataOther⟩ := (loads_iff L L.loader).mpr ⟨hL,rfl⟩
    obtain ⟨hproduced,htable⟩ := (produced_iff sqlRecordCount sqlHighestIndex _).mpr
      ⟨hpointers,hroom,rfl⟩
    have hsecond : ∃ m',L.loader.AutoProduceStrings F.fields (T.memory sqlRecordCount)=
        some (some m') ∧ T.KeepsStrings (T.memory sqlRecordCount) m' := by
      rcases hrecords with hnone | hle
      · exact strings_second_none hL hnone
      · exact strings_second hL hroom hle
    obtain ⟨m',hstrings,hkept⟩ := hsecond
    refine ⟨T.loader,L.loader,_,T.memory sqlRecordCount,m',
      ⟨hload,hdata,hloadOther,hdataOther,hproduced,strings_first hT hroom,hstrings⟩,
      ⟨htable,?_⟩,⟨rfl,holds_first _⟩,hkept⟩
    exact (length_writes _ _ _ _).symm

end Table

/-! ## The largest id of all -/

/-- A format that has an index only. -/
def indexFormat : Format := ⟨[.ind],by decide,by decide⟩

/-- A table with one record that has the largest id. -/
def largestId : Table indexFormat where
  rows := [.cons 0xffffffff .nil]
  strings := []
  rows_lt := by decide
  strings_lt := by decide
  texts := by
    intro row hrow v hv
    rw [List.mem_singleton.mp hrow] at hv
    cases hv

/-- Behind the largest id there is no place, so that its pointer is written outside the table. -/
theorem not_faithful_largest : ¬largestId.Faithful largestId 0 0 := by
  rintro ⟨l,other,p,m,m',h,_⟩
  have hload : Load largestId.file indexFormat.fields=some (some largestId.loader) := by decide
  have hl := Option.some.inj (Option.some.inj (hload.symm.trans h.load_eq))
  have hnone : largestId.loader.AutoProduceData indexFormat.fields 0 0=none := by rfl
  have hdata := h.produced
  rw [← hl] at hdata
  exact absurd (hnone.symm.trans hdata) (by simp)

end Projectnelth.DbcModel
