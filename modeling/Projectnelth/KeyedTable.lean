import Mathlib

/-!
# A table with a primary key

The rows of a table are read by their key. An insertion of a key that is there fails, a change
of one that is not there does nothing, and a transaction is carried out as a whole or not at all.
-/

namespace Projectnelth.KeyedTable

variable {κ β : Type*} [DecidableEq κ]

/-- The row of each key. -/
abbrev Rows (κ β : Type*) := κ → Option β

inductive Statement (κ β : Type*)
  | insert (k : κ) (b : β)
  | update (k : κ) (f : β → β)
  /-- The rows of the keys that are meant go. -/
  | delete (meant : κ → Bool)

/-- The rows after a statement, unless it fails. -/
def Statement.exec : Statement κ β → Rows κ β → Option (Rows κ β)
  | insert k b,rows => if rows k=none then some (Function.update rows k (some b)) else none
  | update k f,rows => some (Function.update rows k ((rows k).map f))
  | delete meant,rows => some fun k => if meant k then none else rows k

/-- The rows after the statements of a transaction, unless one fails. -/
def exec : List (Statement κ β) → Rows κ β → Option (Rows κ β)
  | [],rows => some rows
  | s::stmts,rows => (s.exec rows).bind (exec stmts)

/-- A transaction that fails leaves the rows. -/
def commit (stmts : List (Statement κ β)) (rows : Rows κ β) : Rows κ β :=
  (exec stmts rows).getD rows

theorem commit_of_exec {stmts : List (Statement κ β)} {rows rows' : Rows κ β}
    (h : exec stmts rows=some rows') : commit stmts rows=rows' := by
  rw [commit,h]
  rfl

theorem exec_append (stmts later : List (Statement κ β)) (rows : Rows κ β) :
    exec (stmts++later) rows=(exec stmts rows).bind (exec later) := by
  induction stmts generalizing rows with
  | nil => rfl
  | cons s stmts ih =>
    simp only [List.cons_append,exec,Option.bind_assoc,ih]

theorem exec_insert {k : κ} {rows : Rows κ β} (h : rows k=none) (b : β)
    (stmts : List (Statement κ β)) :
    exec (.insert k b::stmts) rows=exec stmts (Function.update rows k (some b)) := by
  rw [exec,Statement.exec,if_pos h]
  rfl

/-- Rows of distinct keys that are not there yet are inserted. -/
theorem exec_inserts {l : List (κ×β)} (hkeys : (l.map Prod.fst).Nodup) {rows : Rows κ β}
    (hnew : ∀ x∈l,rows x.1=none) :
    exec (l.map fun x => .insert x.1 x.2) rows=
      some fun k => ((l.find? fun x => x.1=k).map Prod.snd).or (rows k) := by
  induction l generalizing rows with
  | nil => rfl
  | cons x l ih =>
    obtain ⟨hx,hl⟩ := List.nodup_cons.mp hkeys
    have hrest : ∀ y∈l,Function.update rows x.1 (some x.2) y.1=none := by
      intro y hy
      have hne : y.1≠x.1 := fun heq => hx (heq ▸ List.mem_map_of_mem hy)
      rw [Function.update_of_ne hne]
      exact hnew y (List.mem_cons_of_mem x hy)
    rw [List.map_cons,exec_insert (hnew x List.mem_cons_self),ih hl hrest]
    refine congrArg some (funext fun k => ?_)
    by_cases hk : x.1=k
    · subst hk
      have hnone : l.find? (fun y => y.1=x.1)=none := by
        refine List.find?_eq_none.mpr fun y hy heq => hx ?_
        rw [← of_decide_eq_true heq]
        exact List.mem_map_of_mem hy
      rw [hnone,List.find?_cons_of_pos (by simp),Function.update_self]
      rfl
    · rw [List.find?_cons_of_neg (by simpa using hk),Function.update_of_ne (Ne.symm hk)]

end Projectnelth.KeyedTable
