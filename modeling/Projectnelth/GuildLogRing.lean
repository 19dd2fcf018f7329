import Projectnelth.CyclicRun
import Projectnelth.GuildLogModel

/-!
# The ring of a guild log

The log GUIDs of a holder run around a circle with as many places as the holder has records. The
event that is dropped is the one whose row the next event takes, as long as the rows that were
loaded have GUIDs of that circle.
-/

namespace Projectnelth.GuildLogRing

open CyclicRun GuildLogModel LogHolder

variable {α : Type}

/-- The holder of a guild once the rows were loaded, newest first. -/
def loaded (m : UInt32) (rows : List (LogEntry α)) : LogHolder α :=
  rows.foldl loadRow (new m)

/-- The rows of the database by their key. -/
def rowsOf (rows : List (LogEntry α)) : Rows α := fun guid =>
  rows.find? fun entry => entry.m_guid=guid

/-- The holder and the rows once the events happened. -/
def logged (m : UInt32) (rows : List (LogEntry α)) (events : List α) : LogHolder α×Rows α :=
  events.foldl logEvent (loaded m rows,rowsOf rows)

/-- The GUID of a row follows that of the next older one on the circle. -/
def Consecutive (m : UInt32) (newer older : LogEntry α) : Prop :=
  newer.m_guid.toNat≡older.m_guid.toNat+1 [MOD m.toNat]

/-- The holder has the last of all events, under keys that are their rows. -/
structure InStep (m : UInt32) (total : List α) (state : LogHolder α×Rows α) : Prop where
  last : state.1.m_log.map LogEntry.event=total.drop (total.length-m.toNat)
  distinct : (state.1.m_log.map LogEntry.m_guid).Nodup
  below : ∀ entry∈state.1.m_log,entry.m_guid < m
  rows : ∀ guid entry,state.2 guid=some entry ↔ entry∈state.1.m_log ∧ entry.m_guid=guid

/-- The entry that the next event drops. -/
def dropped (m : UInt32) (holder : LogHolder α) : Option (LogEntry α) :=
  if m.toNat ≤ holder.m_log.length then holder.m_log.head? else none

/-- The row that the next event takes is the one of the entry that it drops. -/
def Overwrites (m : UInt32) (state : LogHolder α×Rows α) : Prop :=
  state.2 state.1.GetNextGUID.1=dropped m state.1

/-- The invariant of a holder: its GUIDs are a run on the circle, the next one is behind it. -/
structure Ring (m : UInt32) (first : ℕ) (state : LogHolder α×Rows α) : Prop where
  /-- The maximum stays. -/
  bound : state.1.m_maxRecords=m
  /-- There are not more entries than the maximum. -/
  short : state.1.m_log.length ≤ m.toNat
  guids : state.1.m_log.map (fun entry => entry.m_guid.toNat)=
    cycle m.toNat first state.1.m_log.length
  none_given : state.1.m_log=[] → state.1.m_nextGUID=GUILD_EVENT_LOG_GUID_UNDEFINED
  /-- The last GUID is the end of the run. -/
  last_given : state.1.m_log≠[] →
    state.1.m_nextGUID.toNat=(first+(state.1.m_log.length-1))%m.toNat
  rows : ∀ guid entry,state.2 guid=some entry ↔ entry∈state.1.m_log ∧ entry.m_guid=guid

variable {m : UInt32} {first : ℕ} {state : LogHolder α×Rows α}

/-! ## What a ring says of its entries -/

theorem below_undefined {guid m : UInt32} (h : guid < m) :
    guid≠GUILD_EVENT_LOG_GUID_UNDEFINED := by
  intro heq
  have hlt := UInt32.lt_iff_toNat_lt.mp h
  have hsize := m.toNat_lt
  rw [heq,GUILD_EVENT_LOG_GUID_UNDEFINED] at hlt
  simp only [UInt32.reduceToNat] at hlt
  omega

theorem Ring.below (ring : Ring m first state) (hm : 0 < m.toNat) :
    ∀ entry∈state.1.m_log,entry.m_guid < m := by
  intro entry hentry
  have hmem : entry.m_guid.toNat∈state.1.m_log.map (fun entry => entry.m_guid.toNat) :=
    List.mem_map_of_mem hentry
  rw [ring.guids] at hmem
  exact UInt32.lt_iff_toNat_lt.mpr (lt_of_mem_cycle hm hmem)

theorem Ring.distinct (ring : Ring m first state) :
    (state.1.m_log.map LogEntry.m_guid).Nodup := by
  have hnodup : (cycle m.toNat first state.1.m_log.length).Nodup := nodup_cycle ring.short
  rw [← ring.guids] at hnodup
  have hmap : state.1.m_log.map (fun entry => entry.m_guid.toNat)=
      (state.1.m_log.map LogEntry.m_guid).map UInt32.toNat := by
    rw [List.map_map]
    rfl
  rw [hmap] at hnodup
  exact List.Nodup.of_map _ hnodup

theorem Ring.next (ring : Ring m first state) (hm : 0 < m.toNat)
    (hlog : state.1.m_log≠[]) :
    state.1.GetNextGUID.1.toNat=(first+state.1.m_log.length)%m.toNat := by
  have hpos : 0 < state.1.m_log.length := List.length_pos_iff.mpr hlog
  have hlast := ring.last_given hlog
  have hlt : state.1.m_nextGUID < m := by
    rw [UInt32.lt_iff_toNat_lt,hlast]
    exact Nat.mod_lt _ hm
  have hsucc : (state.1.m_nextGUID+1).toNat=state.1.m_nextGUID.toNat+1 := by
    have hsize := m.toNat_lt
    rw [UInt32.lt_iff_toNat_lt] at hlt
    rw [UInt32.toNat_add]
    exact Nat.mod_eq_of_lt (by simp only [UInt32.toNat_one]; omega)
  simp only [GetNextGUID,if_neg (below_undefined hlt),ring.bound,UInt32.toNat_mod,hsucc,hlast]
  rw [Nat.mod_add_mod]
  congr 1
  omega

/-- The first GUID of a holder without entries. -/
theorem Ring.next_empty (ring : Ring m first state) (hlog : state.1.m_log=[]) :
    state.1.GetNextGUID.1=0 := by
  simp only [GetNextGUID,if_pos (ring.none_given hlog)]

/-! ## One event -/

theorem SaveToDB_apply (entry : LogEntry α) (trans : Rows α) (guid : UInt32) :
    entry.SaveToDB trans guid=if guid=entry.m_guid then some entry else trans guid := by
  rw [LogEntry.SaveToDB,Function.update_idem,Function.update_apply]

theorem logEvent_fst (state : LogHolder α×Rows α) (event : α) :
    (logEvent state event).1=
      {m_log := (if state.1.m_maxRecords.toNat ≤ state.1.m_log.length then state.1.m_log.tail
          else state.1.m_log)++[⟨state.1.GetNextGUID.1,event⟩],
       m_maxRecords := state.1.m_maxRecords,
       m_nextGUID := state.1.GetNextGUID.1} := rfl

theorem logEvent_snd (state : LogHolder α×Rows α) (event : α) (guid : UInt32) :
    (logEvent state event).2 guid=
      if guid=state.1.GetNextGUID.1 then some ⟨state.1.GetNextGUID.1,event⟩
      else state.2 guid :=
  SaveToDB_apply _ _ guid

/-- The rows follow an event whose key only the dropped entry had. -/
theorem rows_logEvent (old : Option (LogEntry α)) {kept : List (LogEntry α)} {rows : Rows α}
    {next : UInt32} {event : α}
    (hrows : ∀ guid entry,rows guid=some entry ↔
      (old=some entry ∨ entry∈kept) ∧ entry.m_guid=guid)
    (hold : ∀ entry,old=some entry → entry.m_guid=next)
    (hkept : ∀ entry∈kept,entry.m_guid≠next) (guid : UInt32) (entry : LogEntry α) :
    (if guid=next then some ⟨next,event⟩ else rows guid)=some entry ↔
      entry∈kept++[⟨next,event⟩] ∧ entry.m_guid=guid := by
  rw [List.mem_append,List.mem_singleton]
  by_cases hguid : guid=next
  · rw [if_pos hguid]
    constructor
    · intro h
      injection h with h
      subst h
      exact ⟨Or.inr rfl,hguid.symm⟩
    · intro h
      rcases h.1 with hmem | heq
      · exact absurd (h.2.trans hguid) (hkept entry hmem)
      · rw [heq]
  · rw [if_neg hguid,hrows]
    constructor
    · intro h
      rcases h.1 with heq | hmem
      · exact absurd (h.2.symm.trans (hold entry heq)) hguid
      · exact ⟨Or.inl hmem,h.2⟩
    · intro h
      rcases h.1 with hmem | heq
      · exact ⟨Or.inr hmem,h.2⟩
      · rw [heq] at h
        exact absurd h.2.symm hguid

theorem ring_logEvent_empty (hm : 0 < m.toNat) (ring : Ring m first state)
    (hlog : state.1.m_log=[]) (event : α) : Ring m 0 (logEvent state event) where
  bound := ring.bound
  short := by
    simp only [logEvent_fst,hlog,List.tail_nil,ite_self,List.nil_append,List.length_singleton]
    omega
  guids := by
    simp only [logEvent_fst,hlog,List.tail_nil,ite_self,List.nil_append,List.length_singleton,
      List.map_cons,List.map_nil,ring.next_empty hlog,cycle,List.range_one,
      UInt32.toNat_zero,Nat.zero_add,Nat.zero_mod]
  none_given := by
    intro h
    simp only [logEvent_fst,List.append_eq_nil_iff,List.cons_ne_nil,and_false] at h
  last_given := by
    intro _
    simp only [logEvent_fst,hlog,List.tail_nil,ite_self,List.nil_append,List.length_singleton,
      ring.next_empty hlog,UInt32.toNat_zero,Nat.sub_self,Nat.add_zero,Nat.zero_mod]
  rows := by
    intro guid entry
    rw [logEvent_snd]
    have hkept : (logEvent state event).1.m_log=[]++[⟨state.1.GetNextGUID.1,event⟩] := by
      simp only [logEvent_fst,hlog,List.tail_nil,ite_self]
    rw [hkept]
    apply rows_logEvent none
    · intro guid entry
      rw [ring.rows,hlog]
      simp only [List.not_mem_nil,reduceCtorEq,or_self]
    · intro entry h
      cases h
    · intro entry h
      cases h

theorem ring_logEvent_room (hm : 0 < m.toNat) (ring : Ring m first state)
    (hlog : state.1.m_log≠[]) (hroom : state.1.m_log.length < m.toNat) (event : α) :
    Ring m first (logEvent state event) := by
  have hnext := ring.next hm hlog
  have hkept : (logEvent state event).1.m_log=
      state.1.m_log++[⟨state.1.GetNextGUID.1,event⟩] := by
    simp only [logEvent_fst,ring.bound,if_neg (Nat.not_le.mpr hroom)]
  constructor
  · exact ring.bound
  · rw [hkept,List.length_append,List.length_singleton]
    exact hroom
  · rw [hkept,List.map_append,List.length_append,List.length_singleton,cycle_succ,ring.guids,
      ← hnext]
    rfl
  · intro h
    rw [hkept] at h
    simp only [List.append_eq_nil_iff,List.cons_ne_nil,and_false] at h
  · intro _
    rw [hkept,List.length_append,List.length_singleton,Nat.add_sub_cancel]
    exact hnext
  · intro guid entry
    rw [logEvent_snd,hkept]
    apply rows_logEvent none
    · intro guid entry
      rw [ring.rows]
      simp only [reduceCtorEq,false_or]
    · intro entry h
      cases h
    intro entry hentry heq
    have hmem : entry.m_guid.toNat∈state.1.m_log.map (fun entry => entry.m_guid.toNat) :=
      List.mem_map_of_mem hentry
    rw [ring.guids,heq,hnext] at hmem
    exact next_not_mem hroom hmem

theorem Ring.full (hm : 0 < m.toNat) (ring : Ring m first state)
    (hfull : state.1.m_log.length=m.toNat) :
    ∃ old kept,state.1.m_log=old::kept ∧ kept.length+1=m.toNat ∧
      old.m_guid=state.1.GetNextGUID.1 ∧
      kept.map (fun entry => entry.m_guid.toNat)=cycle m.toNat (first+1) kept.length := by
  cases hlog : state.1.m_log with
  | nil =>
      rw [hlog,List.length_nil] at hfull
      omega
  | cons old kept =>
      have hlength : kept.length+1=m.toNat := by rw [← hfull,hlog,List.length_cons]
      have hguids := ring.guids
      rw [hlog,List.map_cons,List.length_cons,cycle_cons] at hguids
      injection hguids with hold hkept
      have hnext := ring.next hm (by rw [hlog]; exact List.cons_ne_nil old kept)
      rw [hfull,Nat.add_mod_right,← hold] at hnext
      exact ⟨old,kept,rfl,hlength,UInt32.toNat_inj.mp hnext.symm,hkept⟩

theorem ring_logEvent_full (hm : 0 < m.toNat) (ring : Ring m first state)
    (hfull : state.1.m_log.length=m.toNat) (event : α) :
    Ring m (first+1) (logEvent state event) := by
  obtain ⟨old,kept,hlog,hlength,hold,hguids⟩ := ring.full hm hfull
  have hnext := ring.next hm (by rw [hlog]; exact List.cons_ne_nil old kept)
  have hbehind : first+state.1.m_log.length=first+1+kept.length := by omega
  rw [hbehind] at hnext
  have hkept : (logEvent state event).1.m_log=kept++[⟨state.1.GetNextGUID.1,event⟩] := by
    simp only [logEvent_fst,ring.bound,if_pos (Nat.le_of_eq hfull.symm)]
    rw [hlog,List.tail_cons]
  constructor
  · exact ring.bound
  · rw [hkept,List.length_append,List.length_singleton]
    exact Nat.le_of_eq hlength
  · rw [hkept,List.map_append,List.length_append,List.length_singleton,cycle_succ,hguids,← hnext]
    rfl
  · intro h
    rw [hkept] at h
    simp only [List.append_eq_nil_iff,List.cons_ne_nil,and_false] at h
  · intro _
    rw [hkept,List.length_append,List.length_singleton,Nat.add_sub_cancel]
    exact hnext
  · intro guid entry
    rw [logEvent_snd,hkept]
    apply rows_logEvent (some old)
    · intro guid entry
      rw [ring.rows,hlog,List.mem_cons,Option.some_inj,eq_comm]
    · intro entry h
      injection h with h
      rw [← h]
      exact hold
    · intro entry hentry heq
      have hmem : entry.m_guid.toNat∈kept.map (fun entry => entry.m_guid.toNat) :=
        List.mem_map_of_mem hentry
      rw [hguids,heq,hnext] at hmem
      exact next_not_mem (by omega) hmem

theorem ring_logEvent (hm : 0 < m.toNat) (ring : Ring m first state) (event : α) :
    ∃ next,Ring m next (logEvent state event) := by
  by_cases hlog : state.1.m_log=[]
  · exact ⟨0,ring_logEvent_empty hm ring hlog event⟩
  · rcases Nat.lt_or_eq_of_le ring.short with hroom | hfull
    · exact ⟨first,ring_logEvent_room hm ring hlog hroom event⟩
    · exact ⟨first+1,ring_logEvent_full hm ring hfull event⟩

/-- The row that the next event takes is the one of the entry that it drops. -/
theorem Ring.overwrites (hm : 0 < m.toNat) (ring : Ring m first state) :
    Overwrites m state := by
  unfold Overwrites dropped
  rcases Nat.lt_or_eq_of_le ring.short with hroom | hfull
  · rw [if_neg (Nat.not_le.mpr hroom),Option.eq_none_iff_forall_ne_some]
    intro entry hentry
    obtain ⟨hmem,hguid⟩ := (ring.rows _ entry).mp hentry
    have hlog : state.1.m_log≠[] := List.ne_nil_of_mem hmem
    have hcycle : entry.m_guid.toNat∈state.1.m_log.map (fun entry => entry.m_guid.toNat) :=
      List.mem_map_of_mem hmem
    rw [ring.guids,hguid,ring.next hm hlog] at hcycle
    exact next_not_mem hroom hcycle
  · obtain ⟨old,kept,hlog,_,hold,_⟩ := ring.full hm hfull
    rw [if_pos (Nat.le_of_eq hfull.symm),hlog,List.head?_cons,ring.rows,hlog]
    exact ⟨List.mem_cons_self,hold⟩

/-! ## The rows that are loaded -/

theorem foldl_loadRow (rows : List (LogEntry α)) (holder : LogHolder α)
    (hlen : holder.m_log.length+rows.length ≤ holder.m_maxRecords.toNat) :
    (rows.foldl loadRow holder).m_log=rows.reverse++holder.m_log ∧
      (rows.foldl loadRow holder).m_maxRecords=holder.m_maxRecords ∧
      (holder.m_nextGUID≠GUILD_EVENT_LOG_GUID_UNDEFINED →
        (rows.foldl loadRow holder).m_nextGUID=holder.m_nextGUID) := by
  induction rows generalizing holder with
  | nil => exact ⟨rfl,rfl,fun _ => rfl⟩
  | cons entry rows ih =>
      rw [List.length_cons] at hlen
      have hload : loadRow holder entry=holder.LoadEvent entry := by
        have hroom : holder.CanInsert=true := by
          simp only [CanInsert,decide_eq_true_eq]
          omega
        simp only [loadRow,hroom,if_true]
      obtain ⟨hlog,hmax,hnext⟩ := ih (holder.LoadEvent entry) (by
        simp only [LoadEvent,List.length_cons]
        omega)
      rw [List.foldl_cons,hload]
      constructor
      · rw [hlog,List.reverse_cons,List.append_assoc]
        rfl
      constructor
      · exact hmax
      · intro hgiven
        have hkept : (holder.LoadEvent entry).m_nextGUID=holder.m_nextGUID := if_neg hgiven
        rw [hnext (by rw [hkept]; exact hgiven),hkept]

/-- The rows from the newest to the oldest one are a run backwards. -/
theorem guids_consecutive (rows : List (LogEntry α))
    (hcons : rows.IsChain (Consecutive m)) (hbelow : ∀ entry∈rows,entry.m_guid < m) :
    ∃ first,rows.reverse.map (fun entry => entry.m_guid.toNat)=
        cycle m.toNat first rows.length ∧
      ∀ newest∈rows.head?,newest.m_guid.toNat=(first+(rows.length-1))%m.toNat := by
  induction rows with
  | nil => exact ⟨0,rfl,fun newest h => by cases h⟩
  | cons newest rows ih =>
      have hnewest : newest.m_guid.toNat < m.toNat :=
        UInt32.lt_iff_toNat_lt.mp (hbelow newest List.mem_cons_self)
      cases rows with
      | nil =>
          refine ⟨newest.m_guid.toNat,?_,?_⟩
          · rw [List.length_singleton,cycle_succ,Nat.add_zero,Nat.mod_eq_of_lt hnewest]
            rfl
          intro entry hentry
          injection hentry with hentry
          simp only [← hentry,List.length_cons,List.length_nil,Nat.sub_self,Nat.add_zero,
            Nat.mod_eq_of_lt hnewest]
      | cons older rows =>
          rw [List.isChain_cons_cons] at hcons
          obtain ⟨first,hguids,hlast⟩ := ih hcons.2
            (fun entry hentry => hbelow entry (List.mem_cons_of_mem newest hentry))
          have holder : older.m_guid.toNat=(first+rows.length)%m.toNat := hlast older rfl
          have hnext : newest.m_guid.toNat=(first+(rows.length+1))%m.toNat := by
            have hmod : newest.m_guid.toNat%m.toNat=(older.m_guid.toNat+1)%m.toNat := hcons.1
            rw [Nat.mod_eq_of_lt hnewest,holder,Nat.mod_add_mod] at hmod
            exact hmod
          refine ⟨first,?_,?_⟩
          · have hlength : (newest::older::rows).length=rows.length+1+1 := rfl
            rw [List.reverse_cons,List.map_append,hguids,hlength,List.length_cons,
              cycle_succ m.toNat first (rows.length+1),← hnext]
            rfl
          · intro entry hentry
            injection hentry with hentry
            rw [← hentry]
            exact hnext

/-- What is found under a key is the entry that has it. -/
theorem rowsOf_eq_some (rows : List (LogEntry α)) (hd : (rows.map LogEntry.m_guid).Nodup)
    (guid : UInt32) (entry : LogEntry α) :
    rowsOf rows guid=some entry ↔ entry∈rows ∧ entry.m_guid=guid := by
  induction rows with
  | nil =>
      simp only [rowsOf,List.find?_nil,reduceCtorEq,List.not_mem_nil,false_and]
  | cons row rows ih =>
      rw [List.map_cons,List.nodup_cons] at hd
      have hrest := ih hd.2
      unfold rowsOf at hrest ⊢
      rw [List.find?_cons,List.mem_cons]
      by_cases hrow : row.m_guid=guid
      · simp only [hrow,decide_true,Option.some_inj]
        constructor
        · intro h
          rw [← h]
          exact ⟨Or.inl rfl,hrow⟩
        · intro h
          rcases h.1 with heq | hmem
          · exact heq.symm
          · have hin : entry.m_guid∈rows.map LogEntry.m_guid := List.mem_map_of_mem hmem
            rw [h.2,← hrow] at hin
            exact absurd hin hd.1
      · simp only [hrow,decide_false,hrest]
        constructor
        · intro h
          exact ⟨Or.inr h.1,h.2⟩
        intro h
        rcases h.1 with heq | hmem
        · rw [heq] at h
          exact absurd h.2 hrow
        · exact ⟨hmem,h.2⟩

theorem ring_loaded (hm : 0 < m.toNat) (rows : List (LogEntry α))
    (hlen : rows.length ≤ m.toNat) (hcons : rows.IsChain (Consecutive m))
    (hbelow : ∀ entry∈rows,entry.m_guid < m) :
    ∃ first,Ring m first (loaded m rows,rowsOf rows) := by
  obtain ⟨first,hguids,hlast⟩ := guids_consecutive rows hcons hbelow
  have hroom : (new m : LogHolder α).m_log.length+rows.length ≤ m.toNat := by
    simp only [new,List.length_nil,Nat.zero_add]
    exact hlen
  obtain ⟨hlog,hmax,_⟩ := foldl_loadRow rows (new m) hroom
  have hlog : (loaded m rows).m_log=rows.reverse := by
    rw [loaded,hlog]
    exact List.append_nil _
  have hlength : (loaded m rows).m_log.length=rows.length := by rw [hlog,List.length_reverse]
  have hdistinct : (rows.map LogEntry.m_guid).Nodup := by
    have hnodup : (cycle m.toNat first rows.length).Nodup := nodup_cycle hlen
    have hmap : rows.reverse.map (fun entry => entry.m_guid.toNat)=
        (rows.map LogEntry.m_guid).reverse.map UInt32.toNat := by
      rw [← List.map_reverse,List.map_map]
      rfl
    rw [← hguids,hmap] at hnodup
    exact List.nodup_reverse.mp (List.Nodup.of_map _ hnodup)
  refine ⟨first,hmax,?_,?_,?_,?_,?_⟩
  · simp only [hlength]
    exact hlen
  · simp only [hlength]
    rw [hlog]
    exact hguids
  · intro hnone
    have hrows : rows=[] := by
      rw [← List.length_eq_zero_iff,← hlength,hnone,List.length_nil]
    subst hrows
    rfl
  · intro hsome
    simp only [hlength]
    cases rows with
    | nil => exact absurd hlog hsome
    | cons newest older =>
        have hguid := below_undefined (hbelow newest List.mem_cons_self)
        have hload : loadRow (new m) newest=(new m).LoadEvent newest := by
          simp only [loadRow,CanInsert,new,List.length_nil,hm,decide_true,if_true]
        have hgiven := (foldl_loadRow older ((new m).LoadEvent newest) (by
          rw [List.length_cons] at hlen
          simp only [LoadEvent,new,List.length_cons,List.length_nil]
          omega)).2.2 hguid
        have hfirst : (loaded m (newest::older)).m_nextGUID=newest.m_guid := by
          rw [loaded,List.foldl_cons,hload,hgiven]
          rfl
        rw [hfirst]
        exact hlast newest rfl
  · intro guid entry
    rw [rowsOf_eq_some rows hdistinct,hlog,List.mem_reverse]

/-! ## The events of a run -/

/-- The last of a list once another one comes. -/
theorem drop_append_last (total : List α) (event : α) {n : ℕ} (hn : 0 < n) :
    (total++[event]).drop ((total++[event]).length-n)=
      (if n ≤ (total.drop (total.length-n)).length
        then (total.drop (total.length-n)).tail else total.drop (total.length-n))++[event] := by
  have hlength : (total++[event]).length=total.length+1 := by
    rw [List.length_append,List.length_singleton]
  rw [hlength,List.length_drop,List.drop_append_of_le_length (by omega)]
  congr 1
  by_cases hfull : n ≤ total.length
  · rw [if_pos (by omega),List.tail_drop]
    congr 1
    omega
  · rw [if_neg (by omega)]
    congr 1
    omega

theorem last_logEvent (hm : 0 < m.toNat) (ring : Ring m first state) {total : List α}
    (hlast : state.1.m_log.map LogEntry.event=total.drop (total.length-m.toNat)) (event : α) :
    (logEvent state event).1.m_log.map LogEntry.event=
      (total++[event]).drop ((total++[event]).length-m.toNat) := by
  rw [drop_append_last total event hm,← hlast,List.length_map]
  simp only [logEvent_fst,ring.bound,List.map_append,List.map_cons,List.map_nil]
  congr 1
  by_cases hfull : m.toNat ≤ state.1.m_log.length
  · rw [if_pos hfull,if_pos hfull,List.map_tail]
  · rw [if_neg hfull,if_neg hfull]

theorem ring_run (hm : 0 < m.toNat) (events : List α) {total : List α}
    (ring : Ring m first state)
    (hlast : state.1.m_log.map LogEntry.event=total.drop (total.length-m.toNat)) :
    ∃ next,Ring m next (events.foldl logEvent state) ∧
      (events.foldl logEvent state).1.m_log.map LogEntry.event=
        (total++events).drop ((total++events).length-m.toNat) := by
  induction events generalizing first state total with
  | nil =>
      rw [List.append_nil]
      exact ⟨first,ring,hlast⟩
  | cons event events ih =>
      obtain ⟨next,hring⟩ := ring_logEvent hm ring event
      have hrest := ih hring (last_logEvent hm ring hlast event)
      rw [List.append_assoc] at hrest
      exact hrest

/-- Memory and rows stay in step in every run as long as the rows that were loaded have GUIDs below
the maximum. -/
theorem inStep_iff (m : UInt32) (hm : 1 ≤ m) (rows : List (LogEntry α))
    (hlen : rows.length ≤ m.toNat) (hcons : rows.IsChain (Consecutive m)) :
    (∀ events,InStep m (rows.reverse.map LogEntry.event++events) (logged m rows events) ∧
      Overwrites m (logged m rows events)) ↔ ∀ entry∈rows,entry.m_guid < m := by
  have hpos : 0 < m.toNat := UInt32.le_iff_toNat_le.mp hm
  have hroom : (new m : LogHolder α).m_log.length+rows.length ≤ m.toNat := by
    simp only [new,List.length_nil,Nat.zero_add]
    exact hlen
  have hlog : (loaded m rows).m_log=rows.reverse := by
    rw [loaded,(foldl_loadRow rows (new m) hroom).1]
    exact List.append_nil _
  constructor
  · intro h entry hentry
    have hstart := (h []).1.below entry
    rw [logged,List.foldl_nil,hlog,List.mem_reverse] at hstart
    exact hstart hentry
  · intro hbelow events
    obtain ⟨first,ring⟩ := ring_loaded hpos rows hlen hcons hbelow
    have hlast : (loaded m rows).m_log.map LogEntry.event=
        (rows.reverse.map LogEntry.event).drop
          ((rows.reverse.map LogEntry.event).length-m.toNat) := by
      rw [hlog,List.length_map,List.length_reverse,Nat.sub_eq_zero_of_le hlen,List.drop_zero]
    obtain ⟨next,hring,hevents⟩ := ring_run hpos events ring hlast
    exact ⟨⟨hevents,hring.distinct,hring.below hpos,hring.rows⟩,hring.overwrites hpos⟩

/-- Three records with the places of a circle of three. -/
theorem inStep_three :
    (1 : UInt32) ≤ 3 ∧ ∀ events : List ℕ,
      InStep 3 ([7,8]++events) (logged 3 [⟨0,8⟩,⟨2,7⟩] events) ∧
        Overwrites 3 (logged 3 [⟨0,8⟩,⟨2,7⟩] events) := by
  constructor
  · decide
  · exact (inStep_iff 3 (by decide) [⟨0,8⟩,⟨2,7⟩] (by decide)
      (by simp only [List.isChain_cons_cons,List.isChain_singleton,and_true]; rfl)).mpr
      (by decide)

/-- A row with the maximum as its GUID is not deleted before the rows are loaded; it is not on the
circle. -/
theorem not_inStep_one :
    ¬∀ (m : UInt32) (rows : List (LogEntry ℕ)),1 ≤ m → deleteExceeding m rows=rows →
      rows.length ≤ m.toNat → (rows.map LogEntry.m_guid).Nodup →
      rows.IsChain (Consecutive m) → ∀ events,
        InStep m (rows.reverse.map LogEntry.event++events) (logged m rows events) ∧
          Overwrites m (logged m rows events) := by
  intro h
  have hrun := h 1 [⟨1,7⟩] (by decide) (by decide) (by decide) (by decide)
    (List.isChain_singleton _) []
  exact absurd (hrun.1.below ⟨1,7⟩ List.mem_cons_self) (by decide)

end Projectnelth.GuildLogRing
