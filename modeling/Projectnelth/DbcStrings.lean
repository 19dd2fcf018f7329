import Mathlib
import Projectnelth.DbcProduced

/-!
# Setting the strings

A pass over a table sets the strings that are empty to what the table has and leaves all other cells
alone. Where the table has more records than there are structures, the pass reads a string where
there is none.
-/

namespace Projectnelth.DbcModel

open BitBytes ByteBlock

variable {fmt : List Ft} {l : DBCFileLoader} {x y id : ℕ} {pools : List (List UInt8)}

/-! ## One string -/

/-- Whether a string is empty, where its first character is in a pool. -/
def blank (pools : List (List UInt8)) (p : Ptr) : Option Bool := (Memory.mk [] pools).isEmpty p

theorem isEmpty_eq (m : Memory) (p : Ptr) : m.isEmpty p=blank m.pools p := by
  cases p with
  | null => rfl
  | pool id offset => rfl

/-- What there was in a pool is there when another pool comes. -/
theorem blank_append {p : Ptr} {b : Bool} (h : blank pools p=some b) (pool : List UInt8) :
    blank (pools++[pool]) p=some b := by
  cases p with
  | null => exact h
  | pool id offset =>
    change ((pools[id]?).bind (·[offset]?)).map (fun c => decide (c=0))=some b at h
    change (((pools++[pool])[id]?).bind (·[offset]?)).map (fun c => decide (c=0))=some b
    have hlt : id < pools.length := by
      by_contra hlong
      rw [List.getElem?_eq_none (not_lt.mp hlong)] at h
      cases h
    rw [List.getElem?_append_left hlt]
    exact h

/-- A string when a text was there for it. -/
def filled (pools : List (List UInt8)) (id : ℕ) (p : Ptr) (v : ℕ) : Ptr :=
  if blank pools p=some true then .pool id v else p

theorem fillString_part (id : ℕ) (before after : List (Cell Ptr)) {p : Ptr} {v : ℕ}
    (hread : l.getUInt y x=some v) (hv : v < l.stringSize) (hp : (blank pools p).isSome) :
    fillString l id y x ⟨before++(ofPointer p++after),pools⟩ before.length=
      some ⟨before++(ofPointer (filled pools id p v)++after),pools⟩ := by
  obtain ⟨b,hb⟩ := Option.isSome_iff_exists.mp hp
  unfold fillString filled
  dsimp only
  rw [loadPointer_part,Option.bind_some,isEmpty_eq,hb,Option.bind_some]
  cases b with
  | false => rfl
  | true =>
    rw [if_pos rfl,hread,Option.bind_some,if_pos hv,if_pos rfl]
    unfold Memory.setString
    dsimp only
    rw [store_part before after (by rw [length_ofPointer,length_ofPointer])]
    rfl

/-! ## One record -/

/-- The strings of a record when another one was gone through. -/
def refill (pools : List (List UInt8)) (id : ℕ) (ptrs : List Ptr) (texts : List ℕ) : List Ptr :=
  List.zipWith (filled pools id) ptrs texts

theorem stringField_number {c : Ft} (hc : c≠.string) {s : Memory×ℕ} (hs : s.2 < 2^32) :
    stringField l id y x s c=some (s.1,(s.2+c.size)%UINT32) := by
  have hskip : s=(s.1,(s.2+0)%UINT32) := by
    rw [Nat.add_zero,Nat.mod_eq_of_lt (show s.2 < UINT32 from hs)]
  cases c with
  | string => exact absurd rfl hc
  | na => exact congrArg some hskip
  | naByte => exact congrArg some hskip
  | sort => exact congrArg some hskip
  | float => rfl
  | int => rfl
  | byte => rfl
  | ind => rfl

/-- A record with strings for its structure, whose first characters can be read. -/
structure Ready (pools : List (List UInt8)) (row : Row fmt) (ptrs : List Ptr) : Prop where
  length_eq : ptrs.length=row.texts.length
  /-- The first character is in a pool. -/
  readable : ∀ p∈ptrs,(blank pools p).isSome

/-- The strings of a structure are set, and nothing else. -/
theorem stringFields_part {row other : Row fmt} {ptrs : List Ptr} (before after : List (Cell Ptr))
    (hreads : Reads l y x other) (hready : Ready pools row ptrs)
    (htexts : ∀ v∈other.texts,v < l.stringSize) (hsmall : before.length+structSize fmt < 2^32) :
    stringFields l id y x fmt (⟨before++(row.entry ptrs++after),pools⟩,before.length)=
      some (⟨before++(row.entry (refill pools id ptrs other.texts)++after),pools⟩,
        before.length+structSize fmt) := by
  obtain ⟨hlength,hreadable⟩ := hready
  induction row generalizing x ptrs before with
  | nil => rfl
  | @cons c fmt v row ih =>
    cases other with
    | cons w other =>
      rw [Row.structSize_cons] at hsmall ⊢
      unfold stringFields
      by_cases hc : c=.string
      · subst hc
        rw [Row.texts_string] at hlength
        rw [Row.texts_string] at htexts ⊢
        cases ptrs with
        | nil => cases hlength
        | cons p ptrs =>
          have hfirst := fillString_part id before (row.entry ptrs++after) (hreads.getUInt rfl)
            (htexts w (List.mem_cons_self ..)) (hreadable p (List.mem_cons_self ..))
          have hnext : (before.length+8)%UINT32=
              (before++ofPointer (filled pools id p w)).length := by
            have hsize : Ft.string.size=8 := rfl
            rw [List.length_append,length_ofPointer]
            unfold UINT32
            exact Nat.mod_eq_of_lt (by omega)
          have hrest := ih (before++ofPointer (filled pools id p w)) hreads.tail
            (fun v hv => htexts v (List.mem_cons_of_mem _ hv))
            (by
              have hsize : Ft.string.size=8 := rfl
              rw [List.length_append,length_ofPointer]
              omega)
            (Nat.succ.inj hlength) (fun p hp => hreadable p (List.mem_cons_of_mem _ hp))
          rw [Row.entry_string]
          unfold stringField
          dsimp only
          rw [List.headD_cons,List.tail_cons,List.append_assoc,hfirst,Option.map_some,
            Option.bind_some,hnext,← List.append_assoc before,hrest]
          unfold refill
          rw [List.zipWith_cons_cons,Row.entry_string,List.headD_cons,List.tail_cons,
            List.append_assoc,List.append_assoc,List.length_append,length_ofPointer,Nat.add_assoc]
          rfl
      · have hnext : (before.length+c.size)%UINT32=
            (before++ofBytes (leBytes c.size v) : List (Cell Ptr)).length := by
          rw [List.length_append,length_ofBytes,length_leBytes]
          unfold UINT32
          exact Nat.mod_eq_of_lt (by omega)
        rw [Row.texts_number hc] at hlength
        rw [Row.texts_number hc] at htexts ⊢
        have hrest := ih (before++ofBytes (leBytes c.size v)) hreads.tail htexts
          (by rw [List.length_append,length_ofBytes,length_leBytes]; omega) hlength hreadable
        rw [Row.entry_number hc,Row.entry_number hc,stringField_number hc (by dsimp only; omega),
          Option.bind_some]
        dsimp only
        rw [hnext,List.append_assoc,← List.append_assoc before,hrest,List.append_assoc,
          List.append_assoc,List.length_append,length_ofBytes,length_leBytes,Nat.add_assoc]

/-! ## All of the records -/

/-- The structures of records, each with its strings. -/
def entries (rows : List (Row fmt×List Ptr)) : List (Cell Ptr) :=
  rows.flatMap fun r => r.1.entry r.2

theorem length_entries (rows : List (Row fmt×List Ptr)) :
    (entries rows).length=rows.length*structSize fmt := by
  unfold entries
  rw [List.length_flatMap]
  simp only [Row.length_entry,List.map_const',List.sum_replicate,smul_eq_mul]

/-- The strings of records when those of a table were gone through. -/
def refillAll (pools : List (List UInt8)) (id : ℕ) :
    List (Row fmt×List Ptr) → List (Row fmt) → List (Row fmt×List Ptr)
  | r::rows,other::others => (r.1,refill pools id r.2 other.texts)::refillAll pools id rows others
  | rows,_ => rows

theorem refillAll_nil (rows : List (Row fmt×List Ptr)) : refillAll pools id rows []=rows := by
  cases rows <;> rfl

theorem length_refillAll (rows : List (Row fmt×List Ptr)) (others : List (Row fmt)) :
    (refillAll pools id rows others).length=rows.length := by
  induction rows generalizing others with
  | nil => rfl
  | cons r rows ih =>
    cases others with
    | nil => rfl
    | cons other others =>
      unfold refillAll
      rw [List.length_cons,List.length_cons,ih]

/-- The loop over the records of a table that has no more than there are structures. -/
theorem stringRows_part (id : ℕ) {rows : List (Row fmt×List Ptr)} {others : List (Row fmt)}
    (before after : List (Cell Ptr)) (hle : others.length ≤ rows.length)
    (hreads : ∀ k (hk : k < others.length),Reads l (y+k) 0 others[k])
    (hready : ∀ r∈rows,Ready pools r.1 r.2)
    (htexts : ∀ row∈others,∀ v∈row.texts,v < l.stringSize)
    (hsmall : before.length+others.length*structSize fmt < 2^32) :
    (List.range' y others.length).foldlM (fun s y => stringFields l id y 0 fmt s)
        (⟨before++(entries rows++after),pools⟩,before.length)=
      some (⟨before++(entries (refillAll pools id rows others)++after),pools⟩,
        before.length+others.length*structSize fmt) := by
  induction others generalizing y rows before with
  | nil =>
    rw [refillAll_nil,List.length_nil,Nat.zero_mul]
    rfl
  | cons other others ih =>
    cases rows with
    | nil => exact absurd hle (Nat.not_succ_le_zero _)
    | cons r rows =>
      rw [List.length_cons,Nat.succ_mul] at hsmall
      -- The first record is one of its own, the others come behind its structure.
      have hcons : ∀ ptrs (rest : List (Row fmt×List Ptr)),
          before++(entries ((r.1,ptrs)::rest)++after)=
            before++(r.1.entry ptrs++(entries rest++after)) := by
        intro ptrs rest
        unfold entries
        rw [List.flatMap_cons,List.append_assoc]
      have hfirst : stringFields l id y 0 fmt
          (⟨before++(r.1.entry r.2++(entries rows++after)),pools⟩,before.length)=
            some (⟨before++(r.1.entry (refill pools id r.2 other.texts)++(entries rows++after)),
              pools⟩,before.length+structSize fmt) :=
        stringFields_part before (entries rows++after) (hreads 0 (Nat.succ_pos _))
          (hready r (List.mem_cons_self ..)) (htexts other (List.mem_cons_self ..)) (by omega)
      have hoffset : before.length+structSize fmt=
          (before++r.1.entry (refill pools id r.2 other.texts)).length := by
        rw [List.length_append,Row.length_entry]
      have hreadsRest : ∀ k (hk : k < others.length),Reads l (y+1+k) 0 others[k] := by
        intro k hk
        have hnext := hreads (k+1) (Nat.succ_lt_succ hk)
        rwa [show y+(k+1)=y+1+k by omega] at hnext
      have hrest := ih (before++r.1.entry (refill pools id r.2 other.texts))
        (Nat.le_of_succ_le_succ hle) hreadsRest (fun r hr => hready r (List.mem_cons_of_mem _ hr))
        (fun row hrow => htexts row (List.mem_cons_of_mem _ hrow)) (by rw [← hoffset]; omega)
      rw [List.length_cons,List.range'_succ,List.foldlM_cons,hcons r.2 rows,hfirst]
      unfold refillAll
      rw [hcons,← List.append_assoc before,hoffset]
      refine hrest.trans ?_
      rw [← hoffset,List.append_assoc,Nat.succ_mul,Nat.add_right_comm,Nat.add_assoc]

/-! ## Records behind the structures -/

/-- A record without a string is only gone past. -/
theorem stringFields_none (h : .string∉fmt) (m : Memory) {offset : ℕ} (ho : offset < 2^32) :
    ∃ o < 2^32,stringFields l id y x fmt (m,offset)=some (m,o) := by
  induction fmt generalizing x offset with
  | nil => exact ⟨offset,ho,rfl⟩
  | cons c fmt ih =>
    have hc : c≠.string := fun hc => h (hc ▸ List.mem_cons_self ..)
    obtain ⟨o,hlt,hrest⟩ := ih (x := x+1) (fun hmem => h (List.mem_cons_of_mem _ hmem))
      (show (offset+c.size)%UINT32 < 2^32 from Nat.mod_lt _ (by decide))
    refine ⟨o,hlt,?_⟩
    unfold stringFields
    rw [stringField_number hc ho,Option.bind_some]
    exact hrest

/-- The loop over records without a string changes nothing. -/
theorem stringRows_none (h : .string∉fmt) (m : Memory) (ys : List ℕ) {offset : ℕ}
    (ho : offset < 2^32) :
    ∃ o,ys.foldlM (fun s y => stringFields l id y 0 fmt s) (m,offset)=some (m,o) := by
  induction ys generalizing offset with
  | nil => exact ⟨offset,rfl⟩
  | cons y ys ih =>
    have hstep : ∃ o < 2^32,stringFields l id y 0 fmt (m,offset)=some (m,o) :=
      stringFields_none h m ho
    obtain ⟨o,hlt,hfirst⟩ := hstep
    obtain ⟨last,hrest⟩ := ih hlt
    exact ⟨last,by rw [List.foldlM_cons,hfirst]; exact hrest⟩

/-- The size of what stands before the first string of a structure. -/
def beforeString (fmt : List Ft) : ℕ := structSize (fmt.takeWhile (· ≠ .string))

/-- Nothing is read where no pointer is at the place of the first string. -/
theorem stringFields_plain (h : .string∈fmt) (m : Memory) {offset : ℕ} (ho : offset < 2^32)
    (hplain : ∀ c,m.dataTable[(offset+beforeString fmt)%2^32]?=some c → Plain c) :
    stringFields l id y x fmt (m,offset)=none := by
  induction fmt generalizing x offset with
  | nil => cases h
  | cons c fmt ih =>
    unfold stringFields
    by_cases hc : c=.string
    · subst hc
      have hplace : (offset+beforeString (.string::fmt))%2^32=offset := by
        rw [show beforeString (.string::fmt)=0 from rfl,Nat.add_zero]
        exact Nat.mod_eq_of_lt ho
      rw [hplace] at hplain
      unfold stringField fillString
      dsimp only
      rw [loadPointer_plain hplain]
      rfl
    · have hmem : .string∈fmt := by
        rcases List.mem_cons.mp h with hstring | hmem
        · exact absurd hstring.symm hc
        · exact hmem
      have hsize : beforeString (c::fmt)=c.size+beforeString fmt := by
        unfold beforeString
        rw [List.takeWhile_cons_of_pos (by simpa using hc),Row.structSize_cons]
      rw [stringField_number hc ho,Option.bind_some]
      apply ih hmem (Nat.mod_lt _ (by decide))
      rw [Nat.mod_add_mod,Nat.add_assoc,← hsize]
      exact hplain

/-- What stands before the first string of a structure are bytes. -/
theorem Row.entry_plain (row : Row fmt) (ptrs : List Ptr) (after : List (Cell Ptr)) {w : ℕ}
    (hw : w < beforeString fmt) :
    ∀ c,(row.entry ptrs++after)[w]?=some c → Plain c := by
  induction row generalizing w with
  | nil => exact absurd hw (Nat.not_lt_zero w)
  | @cons c fmt v row ih =>
    by_cases hc : c=.string
    · subst hc
      exact absurd hw (Nat.not_lt_zero w)
    have hsize : beforeString (c::fmt)=c.size+beforeString fmt := by
      unfold beforeString
      rw [List.takeWhile_cons_of_pos (by simpa using hc),Row.structSize_cons]
    have hlength : (ofBytes (leBytes c.size v) : List (Cell Ptr)).length=c.size := by
      rw [length_ofBytes,length_leBytes]
    rw [Row.entry_number hc,List.append_assoc]
    by_cases hlt : w < c.size
    · intro cell hcell
      rw [List.getElem?_append_left (by rw [hlength]; exact hlt)] at hcell
      unfold ofBytes at hcell
      rw [List.getElem?_map] at hcell
      obtain ⟨b,_,rfl⟩ := Option.map_eq_some_iff.mp hcell
      trivial
    · rw [List.getElem?_append_right (by rw [hlength]; omega),hlength]
      exact ih (by omega)

/-! ## The pass of a table -/

theorem structSize_append (a b : List Ft) : structSize (a++b)=structSize a+structSize b := by
  unfold structSize
  rw [List.map_append,List.sum_append]

theorem beforeString_le (fmt : List Ft) : beforeString fmt ≤ structSize fmt := by
  have hsplit := structSize_append (fmt.takeWhile (· ≠ .string)) (fmt.dropWhile (· ≠ .string))
  rw [List.takeWhile_append_dropWhile] at hsplit
  unfold beforeString
  omega

/-- Where the string after all structures would be, there is no pointer. -/
theorem entries_plain (rows : List (Row fmt×List Ptr)) (n : ℕ)
    (hsmall : rows.length*structSize fmt < 2^32) :
    ∀ c,(entries rows++List.replicate n .undef)[
      (rows.length*structSize fmt+beforeString fmt)%2^32]?=some c → Plain c := by
  have hundef : ∀ k,(entries rows).length ≤ k →
      ∀ c : Cell Ptr,(entries rows++List.replicate n .undef)[k]?=some c → Plain c := by
    intro k hk c hc
    rw [List.getElem?_append_right hk] at hc
    have hmem := List.mem_of_getElem? hc
    rw [(List.mem_replicate.mp hmem).2]
    trivial
  have hle := beforeString_le fmt
  cases rows with
  | nil => exact hundef _ (Nat.zero_le _)
  | cons r rows =>
    by_cases hin : (r::rows).length*structSize fmt+beforeString fmt < 2^32
    · rw [Nat.mod_eq_of_lt hin]
      apply hundef
      rw [length_entries]
      omega
    · -- The offset starts again at the first structure, before its first string.
      have hone : structSize fmt ≤ (r::rows).length*structSize fmt :=
        Nat.le_mul_of_pos_left _ (Nat.succ_pos _)
      have hplace : ((r::rows).length*structSize fmt+beforeString fmt)%2^32 < beforeString fmt := by
        generalize (r::rows).length*structSize fmt=k at *
        omega
      unfold entries
      rw [List.flatMap_cons,List.append_assoc]
      exact r.1.entry_plain r.2 _ hplace

namespace Table

variable {F : Format} {L : Table F}

theorem load_pool (hL : L.Loadable) :
    load L.loader.data L.loader.stringTable L.loader.stringSize=some L.strings := by
  obtain ⟨_,_,hlt⟩ := hL
  have hlength := length_payload L
  have hplace : L.loader.stringTable=(L.rows.flatMap Row.encode).length := by
    have hrows : (L.rows.flatMap Row.encode).length+L.strings.length=L.payload.length := by
      unfold payload
      rw [List.length_append]
    change fileSizes F.fields*L.rows.length%UINT32=_
    rw [Nat.mod_eq_of_lt (show _ < UINT32 by unfold UINT32; omega)]
    omega
  have hload := load_part (L.rows.flatMap Row.encode) L.strings []
  rw [List.append_nil] at hload
  rw [hplace]
  exact hload

theorem strings_eq (hL : L.Loadable) (m : Memory) :
    L.loader.AutoProduceStrings F.fields m=
      ((List.range' 0 L.rows.length).foldlM
        (fun s y => stringFields L.loader m.pools.length y 0 F.fields s)
        (⟨m.dataTable,m.pools++[L.strings]⟩,0)).map fun s => some s.1 := by
  unfold DBCFileLoader.AutoProduceStrings
  rw [if_neg (show ¬F.fields.length≠L.loader.fieldCount from fun h => h rfl),load_pool hL,
    Option.bind_some,← List.range_eq_range']
  rfl

/-- The strings of a table are set where there are no more records than structures. -/
theorem strings_fit (hL : L.Loadable) {rows : List (Row F.fields×List Ptr)}
    (after : List (Cell Ptr)) (hle : L.rows.length ≤ rows.length)
    (hready : ∀ r∈rows,Ready (pools++[L.strings]) r.1 r.2)
    (hsmall : rows.length*structSize F.fields < 2^32) :
    L.loader.AutoProduceStrings F.fields ⟨entries rows++after,pools⟩=
      some (some ⟨entries (refillAll (pools++[L.strings]) pools.length rows L.rows)++after,
        pools++[L.strings]⟩) := by
  have hless : L.rows.length*structSize F.fields ≤ rows.length*structSize F.fields :=
    Nat.mul_le_mul_right _ hle
  have hreads : ∀ k (hk : k < L.rows.length),Reads L.loader (0+k) 0 L.rows[k] := by
    intro k hk
    rw [Nat.zero_add]
    exact reads_loader L hk
  have hrows := stringRows_part pools.length [] after hle hreads hready L.texts
    (by rw [List.length_nil]; omega)
  rw [strings_eq hL]
  exact congrArg (Option.map fun s : Memory×ℕ => some s.1) hrows

/-- A table without a string changes nothing. -/
theorem strings_none (hL : L.Loadable) (h : .string∉F.fields) (m : Memory) :
    L.loader.AutoProduceStrings F.fields m=some (some ⟨m.dataTable,m.pools++[L.strings]⟩) := by
  have hloop : ∃ o,(List.range' 0 L.rows.length).foldlM
      (fun s y => stringFields L.loader m.pools.length y 0 F.fields s)
      (⟨m.dataTable,m.pools++[L.strings]⟩,0)=some (⟨m.dataTable,m.pools++[L.strings]⟩,o) :=
    stringRows_none h _ _ (by omega)
  obtain ⟨o,ho⟩ := hloop
  rw [strings_eq hL,ho]
  rfl

/-- A table with more records than structures reads a string where there is none. -/
theorem strings_long (hL : L.Loadable) (h : .string∈F.fields)
    {rows : List (Row F.fields×List Ptr)} (n : ℕ) (hlong : rows.length < L.rows.length)
    (hready : ∀ r∈rows,Ready (pools++[L.strings]) r.1 r.2)
    (hsmall : rows.length*structSize F.fields < 2^32) :
    L.loader.AutoProduceStrings F.fields ⟨entries rows++List.replicate n .undef,pools⟩=none := by
  have htake : (L.rows.take rows.length).length=rows.length := by
    rw [List.length_take]
    omega
  have hreads : ∀ k (hk : k < (L.rows.take rows.length).length),
      Reads L.loader (0+k) 0 (L.rows.take rows.length)[k] := by
    intro k hk
    rw [Nat.zero_add,List.getElem_take]
    exact reads_loader L (by omega)
  have htexts : ∀ row∈L.rows.take rows.length,∀ v∈row.texts,v < L.loader.stringSize :=
    fun row hrow => L.texts row (List.mem_of_mem_take hrow)
  have hrows := stringRows_part pools.length []
    (List.replicate n .undef) (Nat.le_of_eq htake) hreads hready htexts
    (by rw [List.length_nil,htake]; omega)
  rw [htake,List.nil_append,List.nil_append,List.length_nil,Nat.zero_add] at hrows
  have hplain := entries_plain
    (refillAll (pools++[L.strings]) pools.length rows (L.rows.take rows.length)) n
    (by rw [length_refillAll]; exact hsmall)
  rw [length_refillAll] at hplain
  have hstuck : stringFields L.loader pools.length rows.length 0 F.fields
      (⟨entries (refillAll (pools++[L.strings]) pools.length rows (L.rows.take rows.length))++
        List.replicate n .undef,pools++[L.strings]⟩,rows.length*structSize F.fields)=none :=
    stringFields_plain h _ hsmall hplain
  have hrange : List.range' 0 L.rows.length=
      List.range' 0 rows.length++rows.length::List.range' (rows.length+1)
        (L.rows.length-rows.length-1) := by
    have hsucc : L.rows.length-rows.length=(L.rows.length-rows.length-1)+1 := by omega
    rw [← List.range'_succ,← hsucc]
    have happend : List.range' 0 rows.length++List.range' (0+rows.length)
        (L.rows.length-rows.length)=List.range' 0 (rows.length+(L.rows.length-rows.length)) :=
      List.range'_append_1
    rw [Nat.zero_add] at happend
    rw [happend]
    congr 1
    omega
  rw [strings_eq hL,hrange,List.foldlM_append,hrows]
  change (Option.bind (some _) fun s => (rows.length::_).foldlM _ s).map _=none
  rw [Option.bind_some,List.foldlM_cons,hstuck]
  rfl

end Table

end Projectnelth.DbcModel
