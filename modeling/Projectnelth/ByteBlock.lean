import Mathlib
import Projectnelth.BitBytes

/-!
# A block of memory as a list of cells

A cell of a block was not written yet, or holds a byte, or is one of the eight cells of a pointer.
Loads and stores give nothing where they leave the block. A block is most easily known as a list
of parts one behind the other: a load or a store at the end of the first part is one of the second.
-/

namespace Projectnelth.ByteBlock

/-- One cell of a block, for pointers of a type. -/
inductive Cell (P : Type) where
  /-- The cell was not written since the block was allocated. -/
  | undef
  /-- A byte. -/
  | byte (b : UInt8)
  /-- The cell of a pointer with this number. -/
  | part (p : P) (k : ℕ)
  deriving DecidableEq

variable {α P : Type} {m before part after : List α} {n : ℕ}

/-- So many cells from an offset on. -/
def load (m : List α) (offset n : ℕ) : Option (List α) :=
  if offset+n ≤ m.length then some ((m.drop offset).take n) else none

/-- The block after cells were written from an offset on. -/
def store (m : List α) (offset : ℕ) (cells : List α) : Option (List α) :=
  if offset+cells.length ≤ m.length then
    some (m.take offset++cells++m.drop (offset+cells.length))
  else none

theorem load_part (before part after : List α) :
    load (before++(part++after)) before.length part.length=some part := by
  unfold load
  rw [if_pos (by simp only [List.length_append]; omega),List.drop_left,List.take_left]

theorem store_part {cells : List α} (before after : List α) (h : cells.length=part.length) :
    store (before++(part++after)) before.length cells=some (before++(cells++after)) := by
  unfold store
  rw [if_pos (by simp only [List.length_append]; omega),List.take_left,h,← List.append_assoc,
    ← List.length_append,List.append_assoc,List.append_assoc]
  congr 3
  rw [← List.append_assoc,List.drop_left]

/-- A store behind what was written before, in a block that is not written from there on. -/
theorem store_fresh (before cells : List α) (u : α) (n : ℕ) :
    store (before++List.replicate n u) before.length cells=
      if cells.length ≤ n then some ((before++cells)++List.replicate (n-cells.length) u)
      else none := by
  by_cases h : cells.length ≤ n
  · have hsplit : List.replicate n u=
        List.replicate cells.length u++List.replicate (n-cells.length) u := by
      rw [List.replicate_append_replicate]
      congr 1
      omega
    rw [if_pos h,hsplit,store_part before _ (by rw [List.length_replicate]),List.append_assoc]
  · rw [if_neg h]
    unfold store
    rw [if_neg]
    simp only [List.length_append,List.length_replicate]
    omega

/-! ## Bytes and pointers -/

/-- Bytes as cells. -/
def ofBytes (bytes : List UInt8) : List (Cell P) := bytes.map Cell.byte

@[simp] theorem length_ofBytes (bytes : List UInt8) :
    (ofBytes bytes : List (Cell P)).length=bytes.length :=
  List.length_map _

/-- The cells of a pointer. -/
def ofPointer (p : P) : List (Cell P) := (List.range 8).map (Cell.part p)

@[simp] theorem length_ofPointer (p : P) : (ofPointer p).length=8 := by
  unfold ofPointer
  rw [List.length_map,List.length_range]

variable [DecidableEq P]

/-- The pointer that cells hold, if they are its cells. -/
def toPointer : List (Cell P) → Option P
  | .part p k::rest => if Cell.part p k::rest=ofPointer p then some p else none
  | _ => none

theorem toPointer_ofPointer (p : P) : toPointer (ofPointer p)=some p := by
  have hcons : ofPointer p=Cell.part p 0::(List.range 8).tail.map (Cell.part p) := rfl
  rw [hcons]
  exact if_pos hcons.symm

/-- A cell that is of no pointer does not begin one. -/
def Plain : Cell P → Prop
  | .part _ _ => False
  | _ => True

theorem toPointer_plain {c : Cell P} {rest : List (Cell P)} (h : Plain c) :
    toPointer (c::rest)=none := by
  cases c with
  | undef => rfl
  | byte b => rfl
  | part p k => cases h

/-- The pointer at an offset. -/
def loadPointer (m : List (Cell P)) (offset : ℕ) : Option P := (load m offset 8).bind toPointer

theorem loadPointer_part (before after : List (Cell P)) (p : P) :
    loadPointer (before++(ofPointer p++after)) before.length=some p := by
  have hload := load_part before (ofPointer p) after
  rw [length_ofPointer] at hload
  unfold loadPointer
  rw [hload]
  exact toPointer_ofPointer p

theorem loadPointer_plain {m : List (Cell P)} {offset : ℕ} (h : ∀ c,m[offset]?=some c → Plain c) :
    loadPointer m offset=none := by
  unfold loadPointer load
  split
  · rename_i hle
    have hlt : offset < m.length := by omega
    have hcell : (m.drop offset).take 8=m[offset]::(m.drop (offset+1)).take 7 := by
      rw [List.drop_eq_getElem_cons hlt]
      rfl
    change toPointer ((m.drop offset).take 8)=none
    rw [hcell]
    exact toPointer_plain (h m[offset] (List.getElem?_eq_getElem hlt))
  · rfl

end Projectnelth.ByteBlock
