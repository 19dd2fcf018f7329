import Mathlib
import Projectnelth.OrderedMap
import Projectnelth.InstanceResetSchedule

/-!
# The tables the reset times are loaded from

`LoadResetTimes` goes through the rows of the instances, then asks for the greatest respawn times,
and goes on to the next row of the first answer where it should go on to that of the second one. So
the second loop ends after its first row, and the reset times are those of a database that has this
row only.
-/

namespace Projectnelth.InstanceResetSchedule

open OrderedMap

structure ResultSet (α : Type) where
  /-- `_currentRow`, `NULL` after the last row. -/
  currentRow : Option α
  /-- The rows that are still to be fetched. -/
  rows : List α

namespace ResultSet

variable {α σ : Type}

/-- `Query`. There is no result where there is no row. -/
def query : List α → Option (ResultSet α)
  | [] => none
  | row::rows => some ⟨some row,rows⟩

/-- `do .. while (result->NextRow())`, where the body is given the current row of the result. -/
def doWhile (body : Option α → σ → σ) : σ → Option α → List α → σ×ResultSet α
  | s,current,[] => (body current s,⟨none,[]⟩)
  | s,current,row::rows => doWhile body (body current s) (some row) rows

/-- A loop over a result that was just asked for goes over all of its rows. -/
theorem doWhile_query (body : Option α → σ → σ) (s : σ) (row : α) (rows : List α) :
    doWhile body s (some row) rows=
      ((row::rows).foldl (fun s row => body (some row) s) s,⟨none,[]⟩) := by
  induction rows generalizing s row with
  | nil => rfl
  | cons next rows ih =>
    unfold doWhile
    rw [ih]
    rfl

end ResultSet

/-- A row of `creature_respawn`. -/
structure RespawnRow where
  respawnTime : UInt32
  /-- `instanceId`, zero in the open world. -/
  instanceId : UInt32
  deriving DecidableEq

/-- The latest respawn of an instance. -/
def latestRespawn (rows : List RespawnRow) (id : UInt32) : Option ℕ :=
  ((rows.filter fun row => row.instanceId=id).map fun row => row.respawnTime.toNat).max?

/-- The tables at the start. -/
structure Tables where
  /-- `instance`, in the order of the ids. -/
  instances : List InstanceRow
  sorted : instances.Pairwise fun a b => a.id.toNat < b.id.toNat
  /-- `creature_respawn`. -/
  respawns : List RespawnRow
  /-- The answer to `CHAR_SEL_MAX_CREATURE_RESPAWNS`, in the order of the server. -/
  maxRespawns : List (UInt32×UInt32)
  answer : ∀ t id,(t,id)∈maxRespawns ↔ id≠0 ∧ latestRespawn respawns id=some t.toNat
  /-- The answer has one row for an instance. -/
  grouped : (maxRespawns.map Prod.snd).Nodup
  /-- `instance_reset`. -/
  resetTimes : List (Pair×UInt32)
  keys : (resetTimes.map Prod.fst).Nodup

abbrev InstResetTime := List (ℕ×Pair×ℤ)

/-- The body of the loop over the instances. -/
def loadInstance (row : Option InstanceRow) (instResetTime : InstResetTime) : InstResetTime :=
  match row with
  | none => instResetTime
  | some row =>
    if row.resetTime≠0 then
      write row.id.toNat (row.pair,(row.resetTime.toNat : ℤ)) instResetTime
    else instResetTime

/-- `UPDATE instance SET resettime`. -/
def setResetTime (instance' : UInt32) (resettime : UInt32) (table : List InstanceRow) :
    List InstanceRow :=
  table.map fun row => if row.id=instance' then {row with resetTime := resettime} else row

/-- The body of the loop over the respawn times. -/
def updateInstance (fields : Option (UInt32×UInt32)) (s : InstResetTime×List InstanceRow) :
    InstResetTime×List InstanceRow :=
  match fields with
  | none => s
  | some (respawn,id) =>
    let resettime := respawn+7200
    match find id.toNat s.1 with
    | none => s
    | some (pair,old) =>
      if old≠resettime.toNat then
        (write id.toNat (pair,(resettime.toNat : ℤ)) s.1,setResetTime id resettime s.2)
      else s

/-- The event of an instance goes into the queue where its time is still to come. -/
def scheduleInstance (now : ℤ) (s : InstanceSaveManager) (entry : ℕ×Pair×ℤ) :
    InstanceSaveManager :=
  if now < entry.2.2 then
    s.ScheduleReset entry.2.2 (InstResetEvent.new 0 entry.2.1 (UInt32.ofNat entry.1))
  else s

namespace Tables

variable (T : Tables)

/-- The first part of `LoadResetTimes`: the events of the instances, and the table afterwards. -/
def loadInstances (now : ℤ) (s : InstanceSaveManager) : InstanceSaveManager×List InstanceRow :=
  match ResultSet.query T.instances with
  | none => (s,T.instances)
  | some result =>
    let (instResetTime,result) := ResultSet.doWhile loadInstance [] result.currentRow result.rows
    let (instResetTime,table) :=
      match ResultSet.query T.maxRespawns with
      | none => (instResetTime,T.instances)
      | some result2 =>
        -- the condition of the loop moves the first result, not the second
        (ResultSet.doWhile (fun _ => updateInstance result2.currentRow) (instResetTime,T.instances)
          result.currentRow result.rows).1
    (instResetTime.foldl (scheduleInstance now) s,table)

/-- The rows with a reset time of their own. -/
def timed : List InstanceRow := T.instances.filter fun row => row.resetTime≠0

theorem nodup_ids : (T.instances.map InstanceRow.id).Nodup := by
  rw [List.Nodup,List.pairwise_map]
  refine T.sorted.imp fun hlt hsame => ?_
  rw [hsame] at hlt
  exact lt_irrefl _ hlt

theorem nodup_timed : (T.timed.map InstanceRow.id).Nodup :=
  T.nodup_ids.sublist ((List.filter_sublist).map InstanceRow.id)

/-- What is read of the tables. -/
def database : Database where
  instances := T.timed
  nodup := T.nodup_timed
  respawn := T.maxRespawns.head?
  resetTimes := T.resetTimes

/-- `LoadResetTimes`: the manager and the table of the instances afterwards. -/
def LoadResetTimes (e : Env) (now : ℤ) : InstanceSaveManager×List InstanceRow :=
  let (s,table) := T.loadInstances now ⟨fun _ => 0,[],[],[],[]⟩
  let s := s.loadStored e T.database
  (e.maps.foldl (fun s pair => s.scheduleMap e T.database now pair) s,table)

end Tables

/-! ## The loops -/

/-- The entry of a row. -/
def entryOf (time : InstanceRow → ℤ) (row : InstanceRow) : ℕ×Pair×ℤ :=
  (row.id.toNat,row.pair,time row)

theorem entryOf_congr {time time' : InstanceRow → ℤ} {row : InstanceRow} (h : time row=time' row) :
    entryOf time row=entryOf time' row := by
  unfold entryOf
  rw [h]

/-- An entry behind all others is written at the end. -/
theorem write_last {rows : List InstanceRow} {time : InstanceRow → ℤ} {k : ℕ} {b : Pair×ℤ}
    (h : ∀ row∈rows,row.id.toNat < k) :
    write k b (rows.map (entryOf time))=rows.map (entryOf time)++[(k,b)] := by
  induction rows with
  | nil => rfl
  | cons row rows ih =>
    have hlt : (entryOf time row).1 < k := h row List.mem_cons_self
    have ih := ih fun row hrow => h row (List.mem_cons_of_mem _ hrow)
    rw [List.map_cons]
    unfold write
    rw [if_neg (not_lt.mpr hlt.le),if_neg hlt.ne',ih]
    rfl

theorem foldl_loadInstance (before rows : List InstanceRow)
    (hsorted : (before++rows).Pairwise fun a b => a.id.toNat < b.id.toNat) :
    rows.foldl (fun s row => loadInstance (some row) s)
        ((before.filter fun row => row.resetTime≠0).map
          (entryOf fun row => (row.resetTime.toNat : ℤ)))=
      ((before++rows).filter fun row => row.resetTime≠0).map
        (entryOf fun row => (row.resetTime.toNat : ℤ)) := by
  induction rows generalizing before with
  | nil => rw [List.append_nil,List.foldl_nil]
  | cons row rows ih =>
    have hmove : before++row::rows=(before++[row])++rows := by
      rw [List.append_assoc,List.singleton_append]
    rw [List.foldl_cons,hmove,← ih (before++[row]) (by rw [← hmove]; exact hsorted)]
    congr 1
    have hbefore : ∀ other∈before.filter fun row => row.resetTime≠0,
        other.id.toNat < row.id.toNat := by
      intro other hother
      exact (List.pairwise_append.mp hsorted).2.2 other (List.mem_of_mem_filter hother) row
        List.mem_cons_self
    change (if row.resetTime≠0 then _ else _)=_
    rw [List.filter_append,List.map_append]
    by_cases hzero : row.resetTime≠0
    · rw [if_pos hzero,write_last hbefore,List.filter_singleton]
      simp only [hzero,ne_eq,not_false_eq_true,decide_true,cond_true,List.map_cons,List.map_nil]
      rfl
    · rw [if_neg hzero,List.filter_singleton]
      simp only [hzero,decide_false,cond_false,List.map_nil,List.append_nil]

theorem write_place {rows : List InstanceRow} {row : InstanceRow} (time : InstanceRow → ℤ) (t : ℤ)
    (hsorted : rows.Pairwise fun a b => a.id.toNat < b.id.toNat) (hrow : row∈rows) :
    write row.id.toNat (row.pair,t) (rows.map (entryOf time))=
      rows.map (entryOf fun other => if row.id=other.id then t else time other) := by
  induction rows with
  | nil => exact absurd hrow List.not_mem_nil
  | cons first rows ih =>
    obtain ⟨hfirst,hrest⟩ := List.pairwise_cons.mp hsorted
    rw [List.map_cons,List.map_cons]
    unfold write
    cases List.mem_cons.mp hrow with
    | inl hsame =>
      subst hsame
      have hle : ¬row.id.toNat < (entryOf time row).1 := lt_irrefl _
      have heq : row.id.toNat=(entryOf time row).1 := rfl
      rw [if_neg hle,if_pos heq]
      congr 1
      · unfold entryOf
        dsimp only
        rw [if_pos rfl]
      · apply List.map_congr_left
        intro other hother
        have hne : row.id≠other.id := by
          intro hsame
          have hlt := hfirst other hother
          rw [hsame] at hlt
          exact lt_irrefl _ hlt
        exact entryOf_congr (if_neg hne).symm
    | inr hmem =>
      have hlt : (entryOf time first).1 < row.id.toNat := hfirst row hmem
      have hne : row.id≠first.id := by
        intro hsame
        have hself := hfirst row hmem
        rw [hsame] at hself
        exact lt_irrefl _ hself
      rw [if_neg (not_lt.mpr hlt.le),if_neg hlt.ne',ih hrest hmem]
      congr 1
      exact entryOf_congr (if_neg hne).symm

theorem sorted_entries {rows : List InstanceRow} (time : InstanceRow → ℤ)
    (hsorted : rows.Pairwise fun a b => a.id.toNat < b.id.toNat) :
    Sorted (rows.map (entryOf time)) :=
  List.pairwise_map.mpr hsorted

theorem find_entries {rows : List InstanceRow} {row : InstanceRow} (time : InstanceRow → ℤ)
    (hsorted : rows.Pairwise fun a b => a.id.toNat < b.id.toNat) (hrow : row∈rows) :
    find row.id.toNat (rows.map (entryOf time))=some (row.pair,time row) :=
  (sorted_entries time hsorted).find_of_mem (List.mem_map_of_mem hrow)

theorem find_entries_none {rows : List InstanceRow} {id : UInt32} (time : InstanceRow → ℤ)
    (h : ∀ row∈rows,row.id≠id) : find id.toNat (rows.map (entryOf time))=none := by
  cases hfind : find id.toNat (rows.map (entryOf time)) with
  | none => rfl
  | some b =>
    obtain ⟨row,hrow,hentry⟩ := List.mem_map.mp (mem_of_find hfind)
    have hid : row.id.toNat=id.toNat := congrArg Prod.fst hentry
    exact absurd (UInt32.toNat.inj hid) (h row hrow)

namespace Tables

variable (T : Tables)

theorem sorted_timed : T.timed.Pairwise fun a b => a.id.toNat < b.id.toNat :=
  T.sorted.filter _

/-- A row as it stands in the table afterwards. -/
def newRow (row : InstanceRow) : InstanceRow :=
  match T.maxRespawns.head? with
  | none => row
  | some (respawn,id) =>
    if row.resetTime≠0 ∧ row.id=id then {row with resetTime := respawn+7200} else row

theorem newRow_id (row : InstanceRow) : (T.newRow row).id=row.id := by
  unfold newRow
  cases T.maxRespawns.head? with
  | none => rfl
  | some fields =>
    dsimp only
    split_ifs <;> rfl

theorem newRow_pair (row : InstanceRow) : (T.newRow row).pair=row.pair := by
  unfold newRow
  cases T.maxRespawns.head? with
  | none => rfl
  | some fields =>
    dsimp only
    split_ifs <;> rfl

theorem newRow_resetTime {row : InstanceRow} (h : row.resetTime≠0) :
    ((T.newRow row).resetTime.toNat : ℤ)=T.database.resetTime row := by
  unfold newRow Database.resetTime database
  cases T.maxRespawns.head? with
  | none => rfl
  | some fields =>
    dsimp only
    by_cases hid : fields.2=row.id
    · rw [if_pos ⟨h,hid.symm⟩,if_pos hid]
    · rw [if_neg (fun hboth => hid hboth.2.symm),if_neg hid]

/-- The second loop looks at the first row of its result. -/
theorem updateInstance_first {respawn id : UInt32} (hhead : T.maxRespawns.head?=some (respawn,id)) :
    updateInstance (some (respawn,id))
        (T.timed.map (entryOf fun row => (row.resetTime.toNat : ℤ)),T.instances)=
      (T.timed.map (entryOf T.database.resetTime),T.instances.map T.newRow) := by
  have htime : ∀ row,T.database.resetTime row=
      if id=row.id then ((respawn+7200).toNat : ℤ) else (row.resetTime.toNat : ℤ) := by
    intro row
    unfold Database.resetTime database
    dsimp only
    rw [hhead]
  have hnew : ∀ row,T.newRow row=
      if row.resetTime≠0 ∧ row.id=id then {row with resetTime := respawn+7200} else row := by
    intro row
    unfold newRow
    rw [hhead]
  unfold updateInstance
  dsimp only
  by_cases hmem : ∃ row∈T.timed,row.id=id
  · obtain ⟨row,hrow,rfl⟩ := hmem
    rw [find_entries _ T.sorted_timed hrow]
    dsimp only
    have hin := List.mem_of_mem_filter hrow
    have hnonzero : row.resetTime≠0 := of_decide_eq_true (List.mem_filter.mp hrow).2
    have hentries : T.timed.map (entryOf T.database.resetTime)=
        T.timed.map (entryOf fun other =>
          if row.id=other.id then ((respawn+7200).toNat : ℤ) else (other.resetTime.toNat : ℤ)) := by
      apply List.map_congr_left
      intro other _
      exact entryOf_congr (htime other)
    have hsame : ∀ other∈T.instances,other.id=row.id → other=row := by
      intro other hother hid
      exact List.inj_on_of_nodup_map T.nodup_ids hother hin hid
    by_cases hold : (row.resetTime.toNat : ℤ)≠(respawn+7200).toNat
    · rw [if_pos hold,write_place _ _ T.sorted_timed hrow,← hentries]
      congr 1
      unfold setResetTime
      apply List.map_congr_left
      intro other hother
      rw [hnew other]
      by_cases hid : other.id=row.id
      · have hnonzero' : other.resetTime≠0 := by
          rw [hsame other hother hid]
          exact hnonzero
        rw [if_pos hid,if_pos ⟨hnonzero',hid⟩]
      · rw [if_neg hid,if_neg (fun hboth => hid hboth.2)]
    · have heq : row.resetTime=respawn+7200 := by
        have hcast := not_not.mp hold
        exact UInt32.toNat.inj (by exact_mod_cast hcast)
      rw [if_neg hold,hentries]
      congr 1
      · apply List.map_congr_left
        intro other hother
        apply entryOf_congr
        by_cases hid : row.id=other.id
        · rw [if_pos hid,hsame other (List.mem_of_mem_filter hother) hid.symm,heq]
        · rw [if_neg hid]
      · conv_lhs => rw [← List.map_id T.instances]
        apply List.map_congr_left
        intro other hother
        rw [hnew other,id_eq]
        split_ifs with hboth
        · rw [← heq,hsame other hother hboth.2]
        · rfl
  · have hnone : ∀ row∈T.timed,row.id≠id := fun row hrow hid => hmem ⟨row,hrow,hid⟩
    rw [find_entries_none _ hnone]
    dsimp only
    congr 1
    · apply List.map_congr_left
      intro row hrow
      apply entryOf_congr
      rw [htime row,if_neg (fun hid => hnone row hrow hid.symm)]
    · conv_lhs => rw [← List.map_id T.instances]
      apply List.map_congr_left
      intro row hrow
      rw [hnew row,id_eq,if_neg]
      intro hboth
      exact hnone row (List.mem_filter.mpr ⟨hrow,decide_eq_true hboth.1⟩) hboth.2

/-- The events of the instances are those of the database with the first row. -/
theorem scheduleInstances_entries (now : ℤ) (rows : List InstanceRow) (s : InstanceSaveManager) :
    (rows.map (entryOf T.database.resetTime)).foldl (scheduleInstance now) s=
      s.scheduleInstances T.database now rows := by
  unfold InstanceSaveManager.scheduleInstances
  rw [List.foldl_map]
  congr 1
  funext s row
  unfold scheduleInstance entryOf
  rw [UInt32.ofNat_toNat]

theorem loadInstances_eq (now : ℤ) (s : InstanceSaveManager) :
    T.loadInstances now s=
      (s.scheduleInstances T.database now T.timed,T.instances.map T.newRow) := by
  unfold loadInstances
  cases hinstances : T.instances with
  | nil =>
    have htimed : T.timed=[] := by
      unfold timed
      rw [hinstances]
      rfl
    rw [htimed]
    rfl
  | cons row rows =>
    have hload : rows.foldl (fun s row => loadInstance (some row) s) (loadInstance (some row) [])=
        T.timed.map (entryOf fun row => (row.resetTime.toNat : ℤ)) := by
      have hall := foldl_loadInstance [] T.instances T.sorted
      rw [List.nil_append,hinstances] at hall
      unfold timed
      rw [hinstances]
      exact hall
    unfold ResultSet.query
    dsimp only
    rw [ResultSet.doWhile_query,List.foldl_cons,hload]
    cases hgroups : T.maxRespawns with
    | nil =>
      have htime : T.database.resetTime=fun row => (row.resetTime.toNat : ℤ) := by
        funext row
        unfold Database.resetTime database
        rw [hgroups]
        rfl
      have hnew : T.newRow=id := by
        funext row
        unfold newRow
        rw [hgroups]
        rfl
      dsimp only
      rw [← T.scheduleInstances_entries now T.timed s,htime,hnew,List.map_id]
    | cons fields groups =>
      have hfirst := T.updateInstance_first
        (show T.maxRespawns.head?=some (fields.1,fields.2) by rw [hgroups]; rfl)
      dsimp only
      unfold ResultSet.doWhile
      dsimp only
      rw [← hinstances,hfirst,T.scheduleInstances_entries]

theorem LoadResetTimes_eq (e : Env) (now : ℤ) :
    T.LoadResetTimes e now=
      (InstanceSaveManager.LoadResetTimes e T.database now,T.instances.map T.newRow) := by
  unfold LoadResetTimes InstanceSaveManager.LoadResetTimes
  rw [T.loadInstances_eq]
  rfl

end Tables

end Projectnelth.InstanceResetSchedule
