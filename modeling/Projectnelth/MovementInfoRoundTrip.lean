import Mathlib
import Projectnelth.MovementInfoElements

/-!
# Reading a movement packet back

Writer and reader agree on a sequence because each presence bit is the condition of both
sides for what it guards. The state of the reader is known after each prefix: what it has
read is what the info holds, everything else is as in a fresh info. The bytes themselves are
carried by the buffer, wherever its bits are aligned.
-/

namespace Projectnelth.MovementInfoModel

open BitBytes ByteBufferModel ByteBufferEmission ByteBufferRoundTrip

variable {f : FloatOps} {info : MovementInfo} {seen : List MovementStatusElement}

theorem present_of_not_sent {p : PresenceElement} (h : p.sent f info=false) :
    p.present f info=false := by
  cases p with
  | transportTime2 => exact (congrArg (· && _) h).trans (Bool.false_and _)
  | transportTime3 => exact (congrArg (· && _) h).trans (Bool.false_and _)
  | fallDirection => exact (congrArg (· && _) h).trans (Bool.false_and _)
  | _ => cases h

/-- The presence bits of the reader, after the elements it has seen. -/
def HasAgrees (f : FloatOps) (info : MovementInfo) (seen : List MovementStatusElement)
    (has : Presence) : Prop :=
  ∀ p, has.get p=(decide (.has p∈seen) && p.present f info)

theorem HasAgrees.other {has : Presence} (h : HasAgrees f info seen has)
    {e : MovementStatusElement} (he : ∀ p, .has p≠e) : HasAgrees f info (e::seen) has := by
  intro p
  simp only [List.mem_cons,he p,false_or]
  exact h p

theorem HasAgrees.read {has : Presence} (h : HasAgrees f info seen has) (p : PresenceElement) :
    HasAgrees f info (.has p::seen) (has.set (p.present f info) p) := by
  intro q
  rw [Presence.get_set]
  by_cases hq : q=p
  · subst hq
    simp only [if_true,List.mem_cons_self,decide_true,Bool.true_and]
  · simp only [hq,if_false,List.mem_cons,MovementStatusElement.has.injEq,false_or]
    exact h q

theorem HasAgrees.skip {has : Presence} (h : HasAgrees f info seen has) {p : PresenceElement}
    (hp : p.sent f info=false) : HasAgrees f info (.has p::seen) has := by
  intro q
  by_cases hq : q=p
  · subst hq
    rw [h q,present_of_not_sent hp,Bool.and_false,Bool.and_false]
  · simp only [List.mem_cons,MovementStatusElement.has.injEq,hq,false_or]
    exact h q

theorem HasAgrees.get_seen {has : Presence} (h : HasAgrees f info seen has)
    {p : PresenceElement} (hp : .has p∈seen) : has.get p=p.present f info := by
  rw [h p,decide_eq_true hp,Bool.true_and]

/-- The bytes of a guid of the reader, after the elements it has seen. -/
def GuidAgrees (bitOf byteOf : Fin 8 → MovementStatusElement) (guid : ObjectGuid)
    (seen : List MovementStatusElement) (id : ObjectGuid) : Prop :=
  ∀ i, id i=if byteOf i∈seen then guid i else if bitOf i∈seen ∧ guid i≠0 then 1 else 0

section Guids

variable {bitOf byteOf : Fin 8 → MovementStatusElement} {guid id : ObjectGuid}

theorem GuidAgrees.other (h : GuidAgrees bitOf byteOf guid seen id) {e : MovementStatusElement}
    (hbit : ∀ i, bitOf i≠e) (hbyte : ∀ i, byteOf i≠e) :
    GuidAgrees bitOf byteOf guid (e::seen) id := by
  intro i
  simp only [List.mem_cons,hbit i,hbyte i,false_or]
  exact h i

theorem GuidAgrees.readBit (h : GuidAgrees bitOf byteOf guid seen id)
    (hinj : Function.Injective bitOf) (hne : ∀ i j, byteOf i≠bitOf j) {i : Fin 8}
    (hunread : byteOf i∉seen) :
    GuidAgrees bitOf byteOf guid (bitOf i::seen) (id.set i (if guid i≠0 then 1 else 0)) := by
  intro j
  simp only [ObjectGuid.set,List.mem_cons,hne j i,false_or]
  by_cases hj : j=i
  · subst hj
    simp only [Function.update_self,hunread,if_false,true_or,true_and]
  · simp only [Function.update_of_ne hj,hinj.ne hj,false_or]
    exact h j

theorem GuidAgrees.unread (h : GuidAgrees bitOf byteOf guid seen id) {i : Fin 8}
    (hbit : bitOf i∈seen) (hunread : byteOf i∉seen) :
    id i=if guid i≠0 then 1 else 0 := by
  rw [h i,if_neg hunread]
  simp only [hbit,true_and]

theorem GuidAgrees.readByte (h : GuidAgrees bitOf byteOf guid seen id)
    (hinj : Function.Injective byteOf) (hne : ∀ i j, bitOf i≠byteOf j) (i : Fin 8) :
    GuidAgrees bitOf byteOf guid (byteOf i::seen) (id.set i (guid i)) := by
  intro j
  simp only [ObjectGuid.set,List.mem_cons,hne j i,false_or]
  by_cases hj : j=i
  · subst hj
    simp only [Function.update_self,true_or,if_true]
  · simp only [Function.update_of_ne hj,hinj.ne hj,false_or]
    exact h j

/-- A guid that is 0 has nothing to read. -/
theorem GuidAgrees.zero (h : GuidAgrees bitOf byteOf guid seen id) (hzero : ∀ i, guid i=0)
    (e : MovementStatusElement) : GuidAgrees bitOf byteOf guid (e::seen) id := by
  intro i
  rw [h i]
  simp only [hzero i,ne_eq,not_true,and_false,if_false,ite_self]

end Guids

/-- The info of the reader, after the elements it has seen. -/
structure InfoAgrees (f : FloatOps) (info : MovementInfo) (seen : List MovementStatusElement)
    (res : MovementInfo) : Prop where
  /-- The flags. -/
  flags : res.flags=if .movementFlags∈seen then info.flags else 0
  flags2 : res.flags2=if .movementFlags2∈seen then info.flags2 else 0
  hasSpline : res.hasSpline=(decide (.hasSpline∈seen) && info.hasSpline)
  /-- The whole values that were read. -/
  data : ∀ d, .data d∈seen → d.get res=d.carried f info
  fresh : ∀ d : DataElement, (∀ d' : DataElement, d'.slot=d.slot → .data d'∉seen) →
    d.get res=d.get MovementInfo.new

/-- An element that is no whole value changes at most the other members. -/
theorem InfoAgrees.member {res res' : MovementInfo} (h : InfoAgrees f info seen res)
    {e : MovementStatusElement} (hdata : ∀ d, .data d≠e)
    (hget : ∀ d : DataElement, d.get res'=d.get res)
    (hflags : res'.flags=if .movementFlags∈e::seen then info.flags else 0)
    (hflags2 : res'.flags2=if .movementFlags2∈e::seen then info.flags2 else 0)
    (hspline : res'.hasSpline=(decide (.hasSpline∈e::seen) && info.hasSpline)) :
    InfoAgrees f info (e::seen) res' where
  flags := hflags
  flags2 := hflags2
  hasSpline := hspline
  data d hd := (hget d).trans (h.data d ((List.mem_cons.mp hd).resolve_left (hdata d)))
  fresh d hd :=
    (hget d).trans (h.fresh d fun d' hs hmem => hd d' hs (List.mem_cons_of_mem e hmem))

theorem InfoAgrees.other {res : MovementInfo} (h : InfoAgrees f info seen res)
    {e : MovementStatusElement} (h₁ : .movementFlags≠e) (h₂ : .movementFlags2≠e)
    (h₃ : .hasSpline≠e) (h₄ : ∀ d, .data d≠e) : InfoAgrees f info (e::seen) res := by
  refine h.member h₄ (fun _ => rfl) ?_ ?_ ?_
  · simpa only [List.mem_cons,h₁,false_or] using h.flags
  · simpa only [List.mem_cons,h₂,false_or] using h.flags2
  · simpa only [List.mem_cons,h₃,false_or] using h.hasSpline

theorem InfoAgrees.readSpline {res : MovementInfo} (h : InfoAgrees f info seen res) :
    InfoAgrees f info (.hasSpline::seen) { res with hasSpline := info.hasSpline } := by
  refine h.member (fun _ => by rintro ⟨⟩) (fun d => by cases d <;> rfl) ?_ ?_ ?_
  · simpa only [List.mem_cons,reduceCtorEq,false_or] using h.flags
  · simpa only [List.mem_cons,reduceCtorEq,false_or] using h.flags2
  · simp only [List.mem_cons_self,decide_true,Bool.true_and]

theorem InfoAgrees.readFlags {res : MovementInfo} (h : InfoAgrees f info seen res) :
    InfoAgrees f info (.movementFlags::seen) { res with flags := info.flags } := by
  refine h.member (fun _ => by rintro ⟨⟩) (fun d => by cases d <;> rfl) ?_ ?_ ?_
  · simp only [List.mem_cons_self,if_true]
  · simpa only [List.mem_cons,reduceCtorEq,false_or] using h.flags2
  · simpa only [List.mem_cons,reduceCtorEq,false_or] using h.hasSpline

theorem InfoAgrees.readFlags2 {res : MovementInfo} (h : InfoAgrees f info seen res) :
    InfoAgrees f info (.movementFlags2::seen) { res with flags2 := info.flags2 } := by
  refine h.member (fun _ => by rintro ⟨⟩) (fun d => by cases d <;> rfl) ?_ ?_ ?_
  · simpa only [List.mem_cons,reduceCtorEq,false_or] using h.flags
  · simp only [List.mem_cons_self,if_true]
  · simpa only [List.mem_cons,reduceCtorEq,false_or] using h.hasSpline

/-- The state of the reader, after the elements it has seen. -/
structure Agrees (f : FloatOps) (info : MovementInfo) (seen : List MovementStatusElement)
    (r : Reading) : Prop where
  /-- What guards an element comes before it. -/
  closed : ∀ e∈seen, ∀ g∈e.guards, g∈seen
  /-- The presence bits. -/
  has : HasAgrees f info seen r.has
  id : GuidAgrees .hasGuidByte .guidByte info.guid seen r.id
  tid : GuidAgrees .hasTransportGuidByte .transportGuidByte info.t_guid seen r.tid
  info : InfoAgrees f info seen r.info

section Values

variable {buf buf' : ByteBuffer}

theorem readBit_of {b : Bool} (h : Field.bit.read buf=some (Value.bit b,buf')) :
    buf.ReadBit=some (b,buf') := by
  obtain ⟨r,hr,he⟩ := Option.map_eq_some_iff.mp h
  cases he
  exact hr

theorem readBits_of {n : ℕ} {hn : 1 ≤ n ∧ n ≤ 32} {value : UInt32}
    (h : (Field.bits n hn).read buf=some (Value.bits value,buf')) :
    buf.ReadBits 0 n=some (value,buf') := by
  obtain ⟨r,hr,he⟩ := Option.map_eq_some_iff.mp h
  cases he
  exact hr

theorem readByteSeq_of {b : UInt8}
    (h : (Field.byteSeq (b≠0)).read buf=some (Value.byteSeq b,buf')) :
    buf.ReadByteSeq (if b≠0 then 1 else 0)=some (b,buf') := by
  obtain ⟨r,hr,he⟩ := Option.map_eq_some_iff.mp h
  cases he
  simpa only [decide_eq_true_eq] using hr

theorem readInt_of {width : IntWidth} {value : ℕ}
    (h : (Field.int width).read buf=some (Value.int value,buf')) :
    ∃ bytes, buf.read width.bytes=some (bytes,buf') ∧
      Nat.ofDigits 256 (bytes.map UInt8.toNat)=value := by
  obtain ⟨r,hr,he⟩ := Option.map_eq_some_iff.mp h
  cases he
  exact ⟨r.1,hr,rfl⟩

end Values

section Slots

theorem DataElement.slot_eq {d d' : DataElement} (h : d'.slot=d.slot) :
    d'=d ∨ ∃ i j, d=.speed i ∧ d'=.speed j := by
  cases d <;> cases d' <;> first
    | exact .inl rfl
    | exact .inr ⟨_,_,rfl,rfl⟩
    | exact DataElement.noConfusion h

theorem DataElement.carried_slot {d d' : DataElement} (h : d'.slot=d.slot) :
    d'.carried f info=d.carried f info := by
  rcases slot_eq h with rfl | ⟨i,j,rfl,rfl⟩ <;> rfl

/-- A whole value is no flags. -/
theorem DataElement.set_flags (res : MovementInfo) (v : ℕ) (d : DataElement) :
    (d.set f res v).flags=res.flags := by
  cases d <;> rfl

/-- A whole value is no other flags. -/
theorem DataElement.set_flags2 (res : MovementInfo) (v : ℕ) (d : DataElement) :
    (d.set f res v).flags2=res.flags2 := by
  cases d <;> rfl

/-- A whole value is no spline bit. -/
theorem DataElement.set_hasSpline (res : MovementInfo) (v : ℕ) (d : DataElement) :
    (d.set f res v).hasSpline=res.hasSpline := by
  cases d <;> rfl

/-- A whole value that was read. -/
theorem InfoAgrees.read {res : MovementInfo} (h : InfoAgrees f info seen res) {d : DataElement}
    (hd : d.announced f info=true) :
    InfoAgrees f info (.data d::seen) (d.set f res (d.get info)) where
  flags := by
    rw [DataElement.set_flags,h.flags]
    simp only [List.mem_cons,reduceCtorEq,false_or]
  flags2 := by
    rw [DataElement.set_flags2,h.flags2]
    simp only [List.mem_cons,reduceCtorEq,false_or]
  hasSpline := by
    rw [DataElement.set_hasSpline,h.hasSpline]
    simp only [List.mem_cons,reduceCtorEq,false_or]
  data d' hd' := by
    by_cases hslot : d'.slot=d.slot
    · rw [DataElement.get_set_slot f res hslot (d.get_lt info),DataElement.carried_slot hslot,
        DataElement.carried,if_pos hd]
    rw [DataElement.get_set_other f res _ hslot]
    refine h.data d' ((List.mem_cons.mp hd').resolve_left fun he => hslot ?_)
    cases he
    rfl
  fresh d' hd' := by
    have hslot : d'.slot≠d.slot := fun hs => hd' d hs.symm List.mem_cons_self
    rw [DataElement.get_set_other f res _ hslot]
    exact h.fresh d' fun x hx hmem => hd' x hx (List.mem_cons_of_mem _ hmem)

/-- A whole value that was not announced. -/
theorem InfoAgrees.skip {res : MovementInfo} (h : InfoAgrees f info seen res) {d : DataElement}
    (hd : d.announced f info=false) (hnew : .data d∉seen) :
    InfoAgrees f info (.data d::seen) res where
  flags := by
    rw [h.flags]
    simp only [List.mem_cons,reduceCtorEq,false_or]
  flags2 := by
    rw [h.flags2]
    simp only [List.mem_cons,reduceCtorEq,false_or]
  hasSpline := by
    rw [h.hasSpline]
    simp only [List.mem_cons,reduceCtorEq,false_or]
  data d' hd' := by
    rcases List.mem_cons.mp hd' with he | hmem
    · cases he
      rw [DataElement.carried,hd]
      refine h.fresh d fun x hx => ?_
      rcases DataElement.slot_eq hx with rfl | ⟨i,j,rfl,rfl⟩
      · exact hnew
      · cases hd
    · exact h.data d' hmem
  fresh d' hd' := h.fresh d' fun x hx hmem => hd' x hx (List.mem_cons_of_mem _ hmem)

end Slots

section Step

variable {r : Reading} {buf buf' : ByteBuffer} (hflags : info.flags.toNat < 2^30)
  (hflags2 : info.flags2.toNat < 2^12)

/-- The buffer reads what was written for an element. -/
def Reads (e : MovementStatusElement) (buf buf' : ByteBuffer) : Prop :=
  (e.op f info hflags hflags2).elim (buf'=buf) fun w => w.field.read buf=some (w.value,buf')

theorem Agrees.expected_eq (h : Agrees f info seen r) {p : PresenceElement}
    (hguards : ∀ g∈(MovementStatusElement.has p).guards, g∈seen) :
    p.expected r.has=p.sent f info := by
  cases p with
  | transportTime2 => exact h.has.get_seen (hguards _ List.mem_cons_self)
  | transportTime3 => exact h.has.get_seen (hguards _ List.mem_cons_self)
  | fallDirection => exact h.has.get_seen (hguards _ List.mem_cons_self)
  | _ => rfl

/-- The reader reads the whole values that are announced. -/
theorem Agrees.all_eq (h : Agrees f info seen r) {d : DataElement}
    (hguards : ∀ g∈(MovementStatusElement.data d).guards, g∈seen) :
    d.guards.all r.has.get=d.announced f info := by
  rw [Bool.eq_iff_iff,DataElement.announced,List.all_eq_true,List.all_eq_true]
  refine forall₂_congr fun p hp => ?_
  rw [h.has.get_seen (hguards _ (List.mem_map_of_mem hp))]

theorem Agrees.closed_cons (h : Agrees f info seen r) {e : MovementStatusElement}
    (hguards : ∀ g∈e.guards, g∈seen) : ∀ x∈e::seen, ∀ g∈x.guards, g∈e::seen := by
  intro x hx g hg
  rcases List.mem_cons.mp hx with rfl | hmem
  · exact List.mem_cons_of_mem _ (hguards g hg)
  · exact List.mem_cons_of_mem _ (h.closed x hmem g hg)

theorem zero_of_nonzero {id : ObjectGuid} (h : id.nonzero=false) (i : Fin 8) : id i=0 := by
  by_contra hne
  exact absurd ⟨i,hne⟩ (of_decide_eq_false h)

theorem Agrees.withInfo (h : Agrees f info seen r) {e : MovementStatusElement}
    (hguards : ∀ g∈e.guards, g∈seen) (hhas : ∀ p, .has p≠e)
    (hid : ∀ i, .hasGuidByte i≠e ∧ .guidByte i≠e)
    (htid : ∀ i, .hasTransportGuidByte i≠e ∧ .transportGuidByte i≠e) {res : MovementInfo}
    (hres : InfoAgrees f info (e::seen) res) :
    Agrees f info (e::seen) { r with info := res } :=
  ⟨h.closed_cons hguards,h.has.other hhas,h.id.other (fun i => (hid i).1) fun i => (hid i).2,
    h.tid.other (fun i => (htid i).1) fun i => (htid i).2,hres⟩

theorem Agrees.step (h : Agrees f info seen r) {e : MovementStatusElement}
    (hguards : ∀ g∈e.guards, g∈seen) (hnew : e∉seen)
    (hread : Reads (f := f) hflags hflags2 e buf buf') :
    ∃ r', r.readElement f buf e=some (r',buf') ∧ Agrees f info (e::seen) r' := by
  have hclosed := h.closed_cons hguards
  cases e with
  | hasGuidByte i =>
    have hunread : MovementStatusElement.guidByte i∉seen := fun hmem =>
      hnew (h.closed _ hmem _ List.mem_cons_self)
    have hid := h.id.readBit (fun _ _ he => MovementStatusElement.hasGuidByte.inj he)
      (fun _ _ => by rintro ⟨⟩) hunread
    refine ⟨{ r with id := r.id.set i (if info.guid i≠0 then 1 else 0) },?_,hclosed,
      h.has.other (by simp),hid,h.tid.other (by simp) (by simp),
      h.info.other (by simp) (by simp) (by simp) (by simp)⟩
    simp only [Reading.readElement,readBit_of hread,Option.bind_eq_bind,Option.bind_some,
      decide_eq_true_eq]
    rfl
  | has p =>
    have hexpected := h.expected_eq hguards
    have hrest : ∀ has, HasAgrees f info (.has p::seen) has →
        Agrees f info (.has p::seen) { r with has := has } := fun has hhas =>
      ⟨hclosed,hhas,h.id.other (by simp) (by simp),h.tid.other (by simp) (by simp),
        h.info.other (by simp) (by simp) (by simp) (by simp)⟩
    simp only [Reading.readElement,Presence.read_eq,hexpected]
    cases hs : p.sent f info with
    | true =>
      simp only [Reads,MovementStatusElement.op,hs,if_true,Option.elim_some] at hread
      refine ⟨_,?_,hrest _ (h.has.read p)⟩
      simp only [if_true,readBit_of hread,Option.map_some,Option.bind_eq_bind,Option.bind_some,
        Bool.xor_assoc,Bool.xor_self,Bool.xor_false]
      rfl
    | false =>
      simp only [Reads,MovementStatusElement.op,hs,Bool.false_eq_true,if_false,
        Option.elim_none] at hread
      subst hread
      exact ⟨_,rfl,hrest _ (h.has.skip hs)⟩
  | hasTransportGuidByte i =>
    have hunread : MovementStatusElement.transportGuidByte i∉seen := fun hmem =>
      hnew (h.closed _ hmem _ (List.mem_cons_of_mem _ List.mem_cons_self))
    have hguard : r.has.transportData=info.t_guid.nonzero :=
      h.has.get_seen (hguards _ List.mem_cons_self)
    have hrest : ∀ tid, GuidAgrees .hasTransportGuidByte .transportGuidByte info.t_guid
        (.hasTransportGuidByte i::seen) tid →
        Agrees f info (.hasTransportGuidByte i::seen) { r with tid := tid } := fun _ htid =>
      ⟨hclosed,h.has.other (by simp),h.id.other (by simp) (by simp),htid,
        h.info.other (by simp) (by simp) (by simp) (by simp)⟩
    simp only [Reading.readElement,hguard]
    cases hs : info.t_guid.nonzero with
    | true =>
      simp only [Reads,MovementStatusElement.op,hs,if_true,Option.elim_some] at hread
      have htid := h.tid.readBit (fun _ _ he => MovementStatusElement.hasTransportGuidByte.inj he)
        (fun _ _ => by rintro ⟨⟩) hunread
      refine ⟨_,?_,hrest _ htid⟩
      simp only [if_true,readBit_of hread,Option.bind_eq_bind,Option.bind_some,
        decide_eq_true_eq]
      rfl
    | false =>
      simp only [Reads,MovementStatusElement.op,hs,Bool.false_eq_true,if_false,
        Option.elim_none] at hread
      subst hread
      exact ⟨_,rfl,hrest _ (h.tid.zero (zero_of_nonzero hs) _)⟩
  | hasSpline =>
    refine ⟨_,?_,h.withInfo hguards (by simp) (by simp) (by simp) h.info.readSpline⟩
    simp only [Reading.readElement,readBit_of hread,Option.bind_eq_bind,Option.bind_some]
    rfl
  | guidByte i =>
    have hbit := h.id.unread (hguards _ List.mem_cons_self) hnew
    have hid := h.id.readByte (fun _ _ he => MovementStatusElement.guidByte.inj he)
      (fun _ _ => by rintro ⟨⟩) i
    refine ⟨{ r with id := r.id.set i (info.guid i) },?_,hclosed,
      h.has.other (by simp),hid,h.tid.other (by simp) (by simp),
      h.info.other (by simp) (by simp) (by simp) (by simp)⟩
    simp only [Reading.readElement,hbit,readByteSeq_of hread,Option.bind_eq_bind,
      Option.bind_some]
    rfl
  | transportGuidByte i =>
    have hguard : r.has.transportData=info.t_guid.nonzero :=
      h.has.get_seen (hguards _ List.mem_cons_self)
    have hrest : ∀ tid, GuidAgrees .hasTransportGuidByte .transportGuidByte info.t_guid
        (.transportGuidByte i::seen) tid →
        Agrees f info (.transportGuidByte i::seen) { r with tid := tid } := fun _ htid =>
      ⟨hclosed,h.has.other (by simp),h.id.other (by simp) (by simp),htid,
        h.info.other (by simp) (by simp) (by simp) (by simp)⟩
    simp only [Reading.readElement,hguard]
    cases hs : info.t_guid.nonzero with
    | true =>
      simp only [Reads,MovementStatusElement.op,hs,if_true,Option.elim_some] at hread
      have hbit := h.tid.unread (hguards _ (List.mem_cons_of_mem _ List.mem_cons_self)) hnew
      have htid := h.tid.readByte (fun _ _ he => MovementStatusElement.transportGuidByte.inj he)
        (fun _ _ => by rintro ⟨⟩) i
      refine ⟨_,?_,hrest _ htid⟩
      simp only [if_true,hbit,readByteSeq_of hread,Option.bind_eq_bind,Option.bind_some]
      rfl
    | false =>
      simp only [Reads,MovementStatusElement.op,hs,Bool.false_eq_true,if_false,
        Option.elim_none] at hread
      subst hread
      exact ⟨_,rfl,hrest _ (h.tid.zero (zero_of_nonzero hs) _)⟩
  | movementFlags =>
    have hguard : r.has.movementFlags=decide (info.flags≠0) :=
      h.has.get_seen (hguards _ List.mem_cons_self)
    refine ⟨_,?_,h.withInfo hguards (by simp) (by simp) (by simp) h.info.readFlags⟩
    simp only [Reading.readElement,hguard,decide_eq_true_eq]
    by_cases hs : info.flags≠0
    · simp only [Reads,MovementStatusElement.op,if_pos hs,Option.elim_some] at hread
      simp only [if_pos hs,readBits_of hread,Option.bind_eq_bind,Option.bind_some]
      rfl
    · simp only [Reads,MovementStatusElement.op,if_neg hs,Option.elim_none] at hread
      have hzero : r.info.flags=info.flags := by
        rw [h.info.flags,if_neg hnew,not_not.mp hs]
      rw [if_neg hs,hread,← hzero]
  | movementFlags2 =>
    have hguard : r.has.movementFlags2=decide (info.flags2≠0) :=
      h.has.get_seen (hguards _ List.mem_cons_self)
    refine ⟨_,?_,h.withInfo hguards (by simp) (by simp) (by simp) h.info.readFlags2⟩
    simp only [Reading.readElement,hguard,decide_eq_true_eq]
    by_cases hs : info.flags2≠0
    · simp only [Reads,MovementStatusElement.op,if_pos hs,Option.elim_some] at hread
      simp only [if_pos hs,readBits_of hread,Option.bind_eq_bind,Option.bind_some,UInt16.toUInt16_toUInt32]
      rfl
    · simp only [Reads,MovementStatusElement.op,if_neg hs,Option.elim_none] at hread
      have hzero : r.info.flags2=info.flags2 := by
        rw [h.info.flags2,if_neg hnew,not_not.mp hs]
      rw [if_neg hs,hread,← hzero]
  | data d =>
    have hall := h.all_eq hguards
    have hrest : ∀ res, InfoAgrees f info (.data d::seen) res →
        Agrees f info (.data d::seen) { r with info := res } := fun _ hres =>
      h.withInfo hguards (by simp) (by simp) (by simp) hres
    simp only [Reading.readElement,readData_eq,hall]
    cases hs : d.announced f info with
    | true =>
      simp only [Reads,MovementStatusElement.op,hs,if_true,Option.elim_some] at hread
      obtain ⟨bytes,hbytes,hvalue⟩ := readInt_of hread
      refine ⟨_,?_,hrest _ (h.info.read hs)⟩
      simp only [if_true,hbytes,Option.map_some,hvalue,Option.bind_eq_bind,Option.bind_some]
      rfl
    | false =>
      simp only [Reads,MovementStatusElement.op,hs,Bool.false_eq_true,if_false,
        Option.elim_none] at hread
      subst hread
      exact ⟨_,rfl,hrest _ (h.info.skip hs hnew)⟩
  | zeroBit =>
    refine ⟨_,?_,h.withInfo hguards (by simp) (by simp) (by simp)
      (h.info.other (by simp) (by simp) (by simp) (by simp))⟩
    simp only [Reading.readElement,readBit_of hread,Option.bind_eq_bind,Option.bind_some]
    rfl
  | oneBit =>
    refine ⟨_,?_,h.withInfo hguards (by simp) (by simp) (by simp)
      (h.info.other (by simp) (by simp) (by simp) (by simp))⟩
    simp only [Reading.readElement,readBit_of hread,Option.bind_eq_bind,Option.bind_some]
    rfl

end Step

section Runs

variable {r : Reading} {buf buf' : ByteBuffer} (hflags : info.flags.toNat < 2^30)
  (hflags2 : info.flags2.toNat < 2^12)

theorem Agrees.run (h : Agrees f info seen r) {sequence : List MovementStatusElement}
    (hguard : Guarded seen sequence) (hnew : ∀ e∈sequence, e∉seen) (hnodup : sequence.Nodup)
    (hread : readAll buf ((sequence.filterMap fun e => e.op f info hflags hflags2).map
      Write.field)=some ((sequence.filterMap fun e => e.op f info hflags hflags2).map
        Write.value,buf')) :
    ∃ r', r.readSequence f buf sequence=some (r',buf') ∧
      Agrees f info (sequence.reverse++seen) r' := by
  induction sequence generalizing seen r buf with
  | nil =>
    cases hread
    exact ⟨r,rfl,h⟩
  | cons e sequence ih =>
    obtain ⟨hfirst,hnodup⟩ := List.nodup_cons.mp hnodup
    have hsplit : ∃ buf₁, Reads (f := f) hflags hflags2 e buf buf₁ ∧
        readAll buf₁ ((sequence.filterMap fun e => e.op f info hflags hflags2).map
          Write.field)=some ((sequence.filterMap fun e => e.op f info hflags hflags2).map
            Write.value,buf') := by
      unfold Reads
      cases hop : e.op f info hflags hflags2 with
      | none =>
        rw [List.filterMap_cons_none hop] at hread
        exact ⟨buf,rfl,hread⟩
      | some w =>
        rw [List.filterMap_cons_some hop] at hread
        obtain ⟨⟨value,buf₁⟩,hone,hread⟩ := Option.bind_eq_some_iff.mp hread
        obtain ⟨⟨values,buf₂⟩,hrest,hread⟩ := Option.bind_eq_some_iff.mp hread
        cases hread
        exact ⟨buf₁,hone,hrest⟩
    obtain ⟨buf₁,hone,hrest⟩ := hsplit
    obtain ⟨r₁,hr₁,h₁⟩ := h.step hflags hflags2 hguard.1 (hnew e List.mem_cons_self) hone
    obtain ⟨r',hr',h'⟩ := ih h₁ hguard.2 (fun x hx hmem => by
      rcases List.mem_cons.mp hmem with rfl | hmem
      · exact hfirst hx
      · exact hnew x (List.mem_cons_of_mem e hx) hmem) hnodup hrest
    refine ⟨r',?_,?_⟩
    · rw [Reading.readSequence,hr₁]
      exact hr'
    · rw [List.reverse_cons,List.append_assoc]
      exact h'

/-- A fresh reader has seen nothing. -/
theorem agrees_start : Agrees f info [] (Reading.start MovementInfo.new) where
  closed := (by rintro _ ⟨⟩)
  has p := by cases p <;> rfl
  id i := rfl
  tid i := rfl
  info := ⟨rfl,rfl,rfl,(by rintro _ ⟨⟩),fun _ _ => rfl⟩

end Runs

section Room

/-- How many bytes a piece takes at most. -/
def weight : Piece → ℕ
  | .bit => 1
  | .flushed length => length+1
  | .raw length => length

theorem room_of_weight {size pending : ℕ} {ps : List Piece}
    (h : size+(ps.map weight).sum+1 < ByteBuffer.maxSize) : Room size pending ps := by
  induction ps generalizing size pending with
  | nil =>
    intro _
    simp only [List.map_nil,List.sum_nil] at h
    omega
  | cons p ps ih =>
    rw [List.map_cons,List.sum_cons] at h
    cases p with
    | bit =>
      unfold Room
      rw [weight] at h
      split
      · exact ⟨by omega,ih (by omega)⟩
      · exact ih (by omega)
    | flushed length =>
      rw [weight] at h
      refine ⟨fun _ => by omega,?_,ih ?_⟩ <;> split <;> omega
    | raw length =>
      rw [weight] at h
      exact ⟨by omega,ih (by omega)⟩

/-- The presence bits there are. -/
def presenceElements : List PresenceElement :=
  [.movementFlags,.movementFlags2,.timestamp,.orientation,.transportData,.transportTime2,
    .transportTime3,.pitch,.fallData,.fallDirection,.splineElevation]

/-- The whole values there are, but for the speeds. -/
def dataElements : List DataElement :=
  [.timestamp,.positionX,.positionY,.positionZ,.orientation,.transportPositionX,
    .transportPositionY,.transportPositionZ,.transportOrientation,.transportSeat,.transportTime,
    .transportTime2,.transportTime3,.pitch,.fallTime,.fallVerticalSpeed,.fallCosAngle,
    .fallSinAngle,.fallHorizontalSpeed,.splineElevation,.counter,.height]

/-- The elements of a byte of the two guids. -/
def guidElements (i : Fin 8) : List MovementStatusElement :=
  [.hasGuidByte i,.hasTransportGuidByte i,.guidByte i,.transportGuidByte i]

/-- The elements there are. -/
def allElements : List MovementStatusElement :=
  List.flatten [(List.finRange 8).flatMap guidElements,
    presenceElements.map MovementStatusElement.has,
    dataElements.map MovementStatusElement.data,
    (List.finRange 9).map fun i => MovementStatusElement.data (.speed i),
    [.hasSpline,.movementFlags,.movementFlags2,.zeroBit,.oneBit]]

theorem mem_allElements (e : MovementStatusElement) : e∈allElements := by
  cases e with
  | has p => cases p <;> simp [allElements,presenceElements]
  | data d => cases d <;> simp [allElements,dataElements]
  | _ => simp [allElements,guidElements]

/-- A sequence without repetition is short. -/
theorem length_le_of_nodup {sequence : List MovementStatusElement} (h : sequence.Nodup) :
    sequence.length ≤ 79 :=
  (List.subperm_of_subset h fun e _ => mem_allElements e).length_le

theorem kind_ne_string {e : MovementStatusElement} {n : ℕ} : e.kind f info≠some (.string n) := by
  cases e with
  | hasGuidByte i => rintro ⟨⟩
  | hasSpline => rintro ⟨⟩
  | guidByte i => rintro ⟨⟩
  | zeroBit => rintro ⟨⟩
  | oneBit => rintro ⟨⟩
  | _ =>
    simp only [MovementStatusElement.kind]
    split <;> rintro ⟨⟩

/-- What is no string takes few bytes. -/
theorem weight_pieces {k : Field} (hk : ∀ n, k≠.string n) :
    ((pieces k).map weight).sum ≤ 32 := by
  cases k with
  | bit => decide
  | bits n hn =>
    have hsum : ((pieces (.bits n hn)).map weight).sum=n := by
      simp only [pieces,List.map_replicate,List.sum_replicate_nat,weight,Nat.mul_one]
    exact hsum.le.trans hn.2
  | int width => cases width <;> decide
  | string n => exact absurd rfl (hk n)
  | byteSeq present => cases present <;> decide

/-- A packet of a sequence without repetition has room. -/
theorem room_kinds {sequence : List MovementStatusElement} (h : sequence.Nodup) :
    Room 0 0 ((kinds f info sequence).flatMap pieces) := by
  apply room_of_weight
  have hsum : (((kinds f info sequence).flatMap pieces).map weight).sum ≤
      32*sequence.length := by
    clear h
    induction sequence with
    | nil => exact Nat.le_refl _
    | cons e sequence ih =>
      rw [List.length_cons]
      unfold kinds at ih ⊢
      cases hk : e.kind f info with
      | none =>
        rw [List.filterMap_cons_none hk]
        omega
      | some k =>
        have hw := weight_pieces fun n hn => kind_ne_string (hk.trans (congrArg some hn))
        rw [List.filterMap_cons_some hk,List.flatMap_cons,List.map_append,List.sum_append]
        omega
  have hlen := length_le_of_nodup h
  have hmax : ByteBuffer.maxSize=10000000 := rfl
  omega

end Room

/-- What `Write_OLD` writes for a sequence `Read_OLD` reads back to its end: every value whose
element is in the sequence, an orientation normalized, and where the writer announced nothing
what a fresh info has; those of the transport if and only if there is one. -/
theorem read_write_old (f : FloatOps) (info : MovementInfo)
    (sequence : List MovementStatusElement) (hnodup : sequence.Nodup)
    (hguard : Guarded [] sequence) (hflags : info.flags.toNat < 2^30)
    (hflags2 : info.flags2.toNat < 2^12) (hlow : info.t_guid.nonzero=true → info.t_guid.low=true)
    (haligned : Aligned (kinds f info sequence)) :
    ∃ bytes res buf, info.packet f sequence=some bytes ∧
      MovementInfo.new.Read_OLD f (ByteBuffer.holding bytes) sequence=some (res,buf) ∧
      buf.rpos=buf.size ∧ ∀ e∈sequence, Carried f info res e := by
  have hlow' : info.t_guid.low=info.t_guid.nonzero := by
    cases hn : info.t_guid.nonzero with
    | true => exact hlow hn
    | false =>
      refine decide_eq_false fun ⟨i,_,hi⟩ => hi (zero_of_nonzero hn i)
  have hfields : ((sequence.filterMap fun e => e.op f info hflags hflags2).map Write.field)=
      kinds f info sequence := by
    rw [List.map_filterMap]
    exact List.filterMap_congr fun e _ => op_field hflags hflags2 e
  obtain ⟨bytes,buf,hwritten,hread,hend⟩ :=
    (roundTrip_iff (kinds f info sequence)).mpr ⟨room_kinds hnodup,haligned⟩ _ hfields
  obtain ⟨r,hr,hagrees⟩ := agrees_start.run hflags hflags2 hguard (fun _ _ => by rintro ⟨⟩) hnodup hread
  have hpacket : info.packet f sequence=some bytes := by
    rw [← hwritten]
    unfold MovementInfo.packet written
    rw [Write_OLD_eq hflags hflags2 hlow']
  refine ⟨bytes,{ r.info with guid := r.id,t_guid := r.tid },buf,hpacket,?_,hend,?_⟩
  · rw [MovementInfo.Read_OLD,hr]
    rfl
  intro e he
  have hseen : e∈sequence.reverse++[] := List.mem_append_left _ (List.mem_reverse.mpr he)
  cases e with
  | guidByte i => exact (hagrees.id i).trans (if_pos hseen)
  | transportGuidByte i => exact (hagrees.tid i).trans (if_pos hseen)
  | movementFlags => exact hagrees.info.flags.trans (if_pos hseen)
  | movementFlags2 => exact hagrees.info.flags2.trans (if_pos hseen)
  | hasSpline =>
    have hs := hagrees.info.hasSpline
    rw [decide_eq_true hseen,Bool.true_and] at hs
    exact hs
  | data d =>
    have hd := hagrees.info.data d hseen
    cases d <;> exact hd
  | _ => trivial

section Divergences

/-- The values are read back as written, those that the writer announced as absent as 0. -/
def ReadAsWritten (f : FloatOps) (info : MovementInfo) (sequence : List MovementStatusElement) :
    Prop :=
  ∃ bytes res buf, info.packet f sequence=some bytes ∧
    MovementInfo.new.Read_OLD f (ByteBuffer.holding bytes) sequence=some (res,buf) ∧
    buf.rpos=buf.size ∧ ∀ d, .data d∈sequence →
      d.get res=if d.announced f info then d.get info else 0

theorem ReadAsWritten.found {info : MovementInfo} {sequence : List MovementStatusElement}
    (h : ReadAsWritten f info sequence) {bytes : List UInt8} {d : DataElement}
    {found : ℕ×ℕ×ℕ} (hd : .data d∈sequence) (hbytes : info.packet f sequence=some bytes)
    (hfound : (MovementInfo.new.Read_OLD f (ByteBuffer.holding bytes) sequence).map
      (fun r => (d.get r.1,r.2.rpos,r.2.size))=some found) :
    found.1=(if d.announced f info then d.get info else 0) ∧ found.2.1=found.2.2 := by
  obtain ⟨bytes',res,buf,hbytes',hread,hend,hvalues⟩ := h
  rw [hbytes] at hbytes'
  cases hbytes'
  rw [hread] at hfound
  cases hfound
  exact ⟨hvalues d hd,hend⟩

/-- The floats of the packets below: 7.0, which `fmod` takes to 0.7168145, and 0. -/
def sampleFloats : FloatOps where
  fuzzyZero x := x=0
  nonzero x := x≠0
  negative _ := false
  neg x := x
  add x _ := x
  fmod x _ := if x=0x40E00000 then 0x3F378128 else x
  twoPi := 0x40C90FDB

/-- An orientation of 7.0 comes back as 0.7168145, and the seat of a unit that is on no
transport as -1. A transport whose guid has only high bits is announced as none, so its data
is left in the packet; so is a bit that follows a value which follows another bit. -/
theorem packets_that_change :
    ¬ReadAsWritten sampleFloats
      { MovementInfo.new with pos := ⟨0,0,0,0x40E00000⟩ } [.has .orientation,.data .orientation] ∧
    ¬ReadAsWritten sampleFloats
      { MovementInfo.new with t_seat := 0 } [.has .transportData,.data .transportSeat] ∧
    ¬ReadAsWritten sampleFloats
      { MovementInfo.new with t_guid := fun i => if i=4 then 1 else 0 }
      [.has .transportData,.data .transportTime] ∧
    ¬ReadAsWritten sampleFloats
      { MovementInfo.new with hasSpline := true } [.zeroBit,.data .counter,.hasSpline] := by
  refine ⟨fun h => ?_,fun h => ?_,fun h => ?_,fun h => ?_⟩
  · have hfound := @ReadAsWritten.found _ _ _ h [0,0,0,0xE0,0x40] .orientation
      (0x3F378128,5,5) (by decide) (by decide) (by decide)
    revert hfound
    decide
  · have hfound := @ReadAsWritten.found _ _ _ h [0] .transportSeat (0xFF,1,1)
      (by decide) (by decide) (by decide)
    revert hfound
    decide
  · have hfound := @ReadAsWritten.found _ _ _ h [0,0,0,0,0] .transportTime (0,1,5)
      (by decide) (by decide) (by decide)
    revert hfound
    decide
  · have hfound := @ReadAsWritten.found _ _ _ h [0,0,0,0,0,0x80] .counter (0,5,6)
      (by decide) (by decide) (by decide)
    revert hfound
    decide

/-- A unit on a transport, with an orientation of 7.0. -/
def sampleInfo : MovementInfo :=
  { MovementInfo.new with
    guid := fun i => if i=0 then 5 else 0
    flags := 1
    pos := ⟨1,2,3,0x40E00000⟩
    t_guid := fun i => if i=0 then 9 else 0
    t_seat := 2
    t_time := 77 }

def moveUpdateSwimBackSpeed : List MovementStatusElement :=
  [.hasGuidByte 7,.hasGuidByte 2,.has .transportData,.hasGuidByte 1,.hasTransportGuidByte 2,
    .hasTransportGuidByte 1,.hasTransportGuidByte 0,.hasTransportGuidByte 7,
    .hasTransportGuidByte 3,.hasTransportGuidByte 4,.hasTransportGuidByte 6,.has .transportTime2,
    .hasTransportGuidByte 5,.has .transportTime3,.has .pitch,.has .orientation,.zeroBit,
    .hasGuidByte 5,.hasGuidByte 3,.hasGuidByte 6,.hasGuidByte 4,.hasSpline,.has .movementFlags,
    .hasGuidByte 0,.has .fallData,.has .fallDirection,.movementFlags,.has .timestamp,
    .has .splineElevation,.has .movementFlags2,.movementFlags2,.guidByte 0,.guidByte 4,
    .data .positionY,.transportGuidByte 7,.data .transportTime3,.transportGuidByte 6,
    .transportGuidByte 4,.transportGuidByte 2,.transportGuidByte 3,.data .transportOrientation,
    .transportGuidByte 5,.data .transportTime,.transportGuidByte 0,.transportGuidByte 1,
    .data .transportPositionX,.data .transportPositionZ,.data .transportTime2,
    .data .transportPositionY,.data .transportSeat,.data .fallSinAngle,.data .fallCosAngle,
    .data .fallHorizontalSpeed,.data .fallVerticalSpeed,.data .fallTime,.data .pitch,.guidByte 2,
    .guidByte 7,.data (.speed 4),.data .splineElevation,.data .positionZ,.guidByte 3,
    .data .positionX,.data .timestamp,.guidByte 5,.data .orientation,.guidByte 6,.guidByte 1]

/-- The packet of the unit, in the sequence of `MoveUpdateSwimBackSpeed`. -/
theorem read_write_sample :
    ∃ bytes res buf, sampleInfo.packet sampleFloats moveUpdateSwimBackSpeed=some bytes ∧
      MovementInfo.new.Read_OLD sampleFloats (ByteBuffer.holding bytes)
        moveUpdateSwimBackSpeed=some (res,buf) ∧
      buf.rpos=buf.size ∧ ∀ e∈moveUpdateSwimBackSpeed, Carried sampleFloats sampleInfo res e :=
  read_write_old sampleFloats sampleInfo moveUpdateSwimBackSpeed (by decide) (by decide)
    (by decide) (by decide) (by decide) (by decide)

end Divergences

end Projectnelth.MovementInfoModel
