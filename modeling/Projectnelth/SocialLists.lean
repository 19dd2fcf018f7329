import Mathlib
import Projectnelth.KeyedList
import Projectnelth.RunInvariant
import Projectnelth.Utf8Helpers

/-!
# Friends and ignored players

The social list of one player in memory and its rows in the database. The rows are read in any
order, and only so many of them; yet a list is read back as it was left. What is only shown of a
friend, and the deletion of characters, are outside.
-/

namespace Projectnelth.SocialLists

open KeyedList RunInvariant

def SOCIAL_FLAG_FRIEND : UInt8 := 1

def SOCIAL_FLAG_IGNORED : UInt8 := 2

def SOCIALMGR_FRIEND_LIMIT : ℕ := 50

def SOCIALMGR_IGNORE_LIMIT : ℕ := 200

def socialFlag (ignore : Bool) : UInt8 :=
  if ignore then SOCIAL_FLAG_IGNORED else SOCIAL_FLAG_FRIEND

def socialLimit (ignore : Bool) : ℕ :=
  if ignore then SOCIALMGR_IGNORE_LIMIT else SOCIALMGR_FRIEND_LIMIT

structure FriendInfo where
  Flags : UInt8
  Note : List UInt8

abbrev Rows := List (ℕ×FriendInfo)

structure PlayerSocial where
  m_playerSocialMap : Rows
  /-- The rows of the player in the table `character_social`. -/
  rows : Rows

/-- A change of the record of a friend, where there is one. -/
def change (friendGuid : ℕ) (f : FriendInfo → FriendInfo) (l : Rows) : Rows :=
  l.map fun row => if row.1=friendGuid then (row.1,f row.2) else row

/-- `INSERT`, which fails where there is a row of the friend. -/
def insertRow (row : ℕ×FriendInfo) (l : Rows) : Rows :=
  if (lookup Prod.fst row.1 l).isSome then l else l++[row]

def withFlag (flag : UInt8) (row : ℕ×FriendInfo) : Bool := row.2.Flags &&& flag≠0

namespace PlayerSocial

def GetNumberOfSocialsWithFlag (social : PlayerSocial) (flag : UInt8) : ℕ :=
  social.m_playerSocialMap.countP (withFlag flag)

def AddToSocialList (social : PlayerSocial) (friendGuid : ℕ) (ignore : Bool) :
    PlayerSocial×Bool :=
  let flag := socialFlag ignore
  if social.GetNumberOfSocialsWithFlag flag ≥ socialLimit ignore then (social,false)
  else
    let add := fun fi : FriendInfo => { fi with Flags := fi.Flags ||| flag }
    match lookup Prod.fst friendGuid social.m_playerSocialMap with
    | some _ =>
      (⟨change friendGuid add social.m_playerSocialMap,change friendGuid add social.rows⟩,true)
    | none =>
      (⟨social.m_playerSocialMap++[(friendGuid,⟨flag,[]⟩)],
        insertRow (friendGuid,⟨flag,[]⟩) social.rows⟩,true)

def RemoveFromSocialList (social : PlayerSocial) (friendGuid : ℕ) (ignore : Bool) :
    PlayerSocial :=
  let flag := socialFlag ignore
  match lookup Prod.fst friendGuid social.m_playerSocialMap with
  | none => social
  | some row =>
    if row.2.Flags &&& ~~~flag=0 then
      ⟨remove Prod.fst friendGuid social.m_playerSocialMap,remove Prod.fst friendGuid social.rows⟩
    else
      let drop := fun fi : FriendInfo => { fi with Flags := fi.Flags &&& ~~~flag }
      ⟨change friendGuid drop social.m_playerSocialMap,change friendGuid drop social.rows⟩

def SetFriendNote (social : PlayerSocial) (friendGuid : ℕ) (note : List UInt8) : PlayerSocial :=
  match lookup Prod.fst friendGuid social.m_playerSocialMap with
  | none => social
  | some _ =>
    let set := fun fi : FriendInfo =>
      { fi with Note := (Utf8Helpers.utf8truncate note 48).utf8str }
    ⟨change friendGuid set social.m_playerSocialMap,change friendGuid set social.rows⟩

end PlayerSocial

/-- The loop of `LoadFromDB`. -/
def LoadFromDB (social : Rows) : Rows → Rows
  | [] => social
  | row::result =>
    let social := put Prod.fst row social
    if social.length ≥ SOCIALMGR_FRIEND_LIMIT+SOCIALMGR_IGNORE_LIMIT then social
    else LoadFromDB social result

inductive Action
  | add (friendGuid : ℕ) (ignore : Bool)
  | remove (friendGuid : ℕ) (ignore : Bool)
  | setNote (friendGuid : ℕ) (note : List UInt8)
  /-- The list is dropped at the logout, and at the login up to 255 rows come in some order. -/
  | relog (order : (rows : Rows) → { result : Rows // result.Perm rows })

def PlayerSocial.step (social : PlayerSocial) : Action → PlayerSocial
  | .add friendGuid ignore => (social.AddToSocialList friendGuid ignore).1
  | .remove friendGuid ignore => social.RemoveFromSocialList friendGuid ignore
  | .setNote friendGuid note => social.SetFriendNote friendGuid note
  | .relog order =>
    { social with m_playerSocialMap := LoadFromDB [] ((order social.rows).1.take 255) }

/-! ## Changes of a list -/

section Changes

variable {l : Rows} {k : ℕ} {f : FriendInfo → FriendInfo} {row : ℕ×FriendInfo}

theorem map_fst_change (k : ℕ) (f : FriendInfo → FriendInfo) (l : Rows) :
    (change k f l).map Prod.fst=l.map Prod.fst := by
  rw [change,List.map_map]
  refine List.map_congr_left fun row _ => ?_
  rw [Function.comp_apply]
  split <;> rfl

/-- The record of the friend is replaced. -/
theorem change_eq_replace (hkeys : (l.map Prod.fst).Nodup)
    (hlookup : lookup Prod.fst k l=some row) :
    change k f l=replace Prod.fst (k,f row.2) l := by
  refine List.map_congr_left fun a ha => ?_
  by_cases hkey : a.1=k
  · obtain rfl := List.inj_on_of_nodup_map hkeys ha (mem_of_lookup hlookup)
      (hkey.trans (key_of_lookup hlookup).symm)
    rw [if_pos hkey,if_pos hkey,hkey]
  · rw [if_neg hkey,if_neg hkey]

/-- A flag is not more frequent than its limit where it does not come in, or comes in below. -/
theorem count_change_le (hkeys : (l.map Prod.fst).Nodup)
    (hlookup : lookup Prod.fst k l=some row) {flag : UInt8} {limit : ℕ}
    (hlimit : l.countP (withFlag flag) ≤ limit)
    (hflag : (withFlag flag (k,f row.2)=true → withFlag flag row=true) ∨
      l.countP (withFlag flag) < limit) :
    (change k f l).countP (withFlag flag) ≤ limit := by
  have hcount := @countP_replace _ _ _ _ l row (k,f row.2) (withFlag flag) hkeys hlookup
  rw [← change_eq_replace hkeys hlookup] at hcount
  have hnew := Bool.toNat_le (withFlag flag (k,f row.2))
  rcases hflag with hold | hless
  · have hle : (withFlag flag (k,f row.2)).toNat ≤ (withFlag flag row).toNat :=
      Bool.toNat_le_toNat hold
    omega
  · omega

theorem LoadFromDB_eq (social result : Rows) (hkeys : ((social++result).map Prod.fst).Nodup)
    (hlimit : (social++result).length ≤ SOCIALMGR_FRIEND_LIMIT+SOCIALMGR_IGNORE_LIMIT) :
    LoadFromDB social result=social++result := by
  induction result generalizing social with
  | nil => exact (List.append_nil social).symm
  | cons row result ih =>
    have hput : put Prod.fst row social=social++[row] := by
      refine congrArg (·++[row]) (remove_of_forall_ne fun a ha hkey => ?_)
      rw [List.map_append,List.map_cons] at hkeys
      exact (List.nodup_append.mp hkeys).2.2 a.1 (List.mem_map_of_mem ha) row.1
        List.mem_cons_self hkey
    rw [List.append_cons] at hkeys hlimit ⊢
    rw [LoadFromDB,hput]
    split
    · rename_i hfull
      rw [List.length_append] at hlimit
      have hnil : result=[] := List.length_eq_zero_iff.mp (by omega)
      rw [hnil,List.append_nil]
    · exact ih (social++[row]) hkeys hlimit

end Changes

/-! ## What is kept -/

/-- The rows are the list, and the list is within the limits. -/
structure PlayerSocial.Kept (social : PlayerSocial) : Prop where
  same : social.m_playerSocialMap.Perm social.rows
  keys : (social.m_playerSocialMap.map Prod.fst).Nodup
  flags : ∀ row∈social.m_playerSocialMap,row.2.Flags∈[1,2,3]
  limits : ∀ ignore,
    social.GetNumberOfSocialsWithFlag (socialFlag ignore) ≤ socialLimit ignore

theorem flags_cases {P : UInt8 → Prop} (h1 : P 1) (h2 : P 2) (h3 : P 3) :
    ∀ flags∈([1,2,3] : List UInt8),P flags := by
  simp only [List.forall_mem_cons,List.not_mem_nil,false_imp_iff,implies_true,and_true]
  exact ⟨h1,h2,h3⟩

theorem added_flags : ∀ flags∈([1,2,3] : List UInt8),∀ ignore other,
    flags ||| socialFlag ignore∈([1,2,3] : List UInt8) ∧
      (other≠ignore → (flags ||| socialFlag ignore) &&& socialFlag other≠0 →
        flags &&& socialFlag other≠0) :=
  flags_cases (by decide) (by decide) (by decide)

theorem dropped_flags : ∀ flags∈([1,2,3] : List UInt8),∀ ignore other,
    (flags &&& ~~~socialFlag ignore=0 ∨
        flags &&& ~~~socialFlag ignore∈([1,2,3] : List UInt8)) ∧
      (flags &&& ~~~socialFlag ignore &&& socialFlag other≠0 → flags &&& socialFlag other≠0) :=
  flags_cases (by decide) (by decide) (by decide)

theorem new_flag : ∀ ignore other,socialFlag ignore∈([1,2,3] : List UInt8) ∧
    (other≠ignore → decide (socialFlag ignore &&& socialFlag other≠0)=false) := by
  decide

theorem either_flag : ∀ flags∈([1,2,3] : List UInt8),
    1 ≤ (if decide (flags &&& socialFlag false≠0) then 1 else 0)+
      (if decide (flags &&& socialFlag true≠0) then 1 else 0) :=
  flags_cases (by decide) (by decide) (by decide)

namespace PlayerSocial

variable {social : PlayerSocial} {k : ℕ}

theorem Kept.length_le (h : social.Kept) :
    social.m_playerSocialMap.length ≤ SOCIALMGR_FRIEND_LIMIT+SOCIALMGR_IGNORE_LIMIT := by
  have hcount : ∀ l : Rows,(∀ row∈l,row.2.Flags∈[1,2,3]) →
      l.length ≤ l.countP (withFlag (socialFlag false))+l.countP (withFlag (socialFlag true)) := by
    intro l
    induction l with
    | nil => exact fun _ => Nat.zero_le _
    | cons row l ih =>
      intro hflags
      obtain ⟨hrow,hflags⟩ := List.forall_mem_cons.mp hflags
      have hone := either_flag row.2.Flags hrow
      have hrest := ih hflags
      rw [List.length_cons,List.countP_cons,List.countP_cons]
      unfold withFlag at hrest ⊢
      omega
  exact (hcount _ h.flags).trans (Nat.add_le_add (h.limits false) (h.limits true))

/-- A change of one record is the same in memory and in the database. -/
theorem Kept.change (h : social.Kept) {row : ℕ×FriendInfo}
    (hlookup : lookup Prod.fst k social.m_playerSocialMap=some row) (f : FriendInfo → FriendInfo)
    (hflags : (f row.2).Flags∈[1,2,3])
    (hother : ∀ other,((f row.2).Flags &&& socialFlag other≠0 →
        row.2.Flags &&& socialFlag other≠0) ∨
      social.GetNumberOfSocialsWithFlag (socialFlag other) < socialLimit other) :
    Kept ⟨SocialLists.change k f social.m_playerSocialMap,SocialLists.change k f social.rows⟩ := by
  refine ⟨h.same.map _,(map_fst_change k f _).symm ▸ h.keys,fun a ha => ?_,fun other =>
    count_change_le h.keys hlookup (h.limits other) ((hother other).imp_left fun hold hnew =>
      decide_eq_true (hold (of_decide_eq_true hnew)))⟩
  rw [change_eq_replace h.keys hlookup] at ha
  rcases mem_replace_cases ha with rfl | hold
  · exact hflags
  · exact h.flags a hold.1

/-- A new record comes in, in memory and in the database. -/
theorem Kept.append (h : social.Kept)
    (hlookup : lookup Prod.fst k social.m_playerSocialMap=none) (ignore : Bool)
    (hlimit : social.GetNumberOfSocialsWithFlag (socialFlag ignore) < socialLimit ignore) :
    Kept ⟨social.m_playerSocialMap++[(k,⟨socialFlag ignore,[]⟩)],
      insertRow (k,⟨socialFlag ignore,[]⟩) social.rows⟩ := by
  have hnew : ∀ a∈social.m_playerSocialMap,a.1≠k := fun a ha => key_ne_of_lookup_none hlookup ha
  have hrow : lookup Prod.fst k social.rows=none :=
    List.find?_eq_none.mpr fun a ha heq =>
      hnew a (h.same.mem_iff.mpr ha) (of_decide_eq_true heq)
  refine ⟨?_,?_,fun a ha => ?_,fun other => ?_⟩
  · rw [insertRow,hrow]
    exact h.same.append_right _
  · rw [List.map_append]
    refine h.keys.append (List.nodup_singleton k) (List.disjoint_singleton.mpr fun hmem => ?_)
    obtain ⟨a,ha,hkey⟩ := List.mem_map.mp hmem
    exact hnew a ha hkey
  · rcases List.mem_append.mp ha with hold | hone
    · exact h.flags a hold
    · rw [List.mem_singleton.mp hone]
      exact (new_flag ignore ignore).1
  · have hothers := h.limits other
    unfold GetNumberOfSocialsWithFlag at hlimit hothers ⊢
    rw [List.countP_append,List.countP_singleton]
    by_cases hsame : other=ignore
    · subst hsame
      split <;> omega
    · have hnone : withFlag (socialFlag other) (k,⟨socialFlag ignore,[]⟩)=false :=
        (new_flag ignore other).2 hsame
      rw [hnone]
      exact hothers

theorem Kept.remove (h : social.Kept) (k : ℕ) :
    Kept ⟨KeyedList.remove Prod.fst k social.m_playerSocialMap,
      KeyedList.remove Prod.fst k social.rows⟩ :=
  ⟨h.same.filter _,nodup_remove h.keys k,fun a ha => h.flags a (mem_remove.mp ha).1,
    fun ignore => (List.filter_sublist.countP_le).trans (h.limits ignore)⟩

theorem Kept.addToSocialList (h : social.Kept) (friendGuid : ℕ) (ignore : Bool) :
    (social.AddToSocialList friendGuid ignore).1.Kept := by
  unfold AddToSocialList
  dsimp only
  split
  · exact h
  · rename_i hlimit
    have hlimit := Nat.lt_of_not_le hlimit
    cases hlookup : lookup Prod.fst friendGuid social.m_playerSocialMap with
    | none => exact h.append hlookup ignore hlimit
    | some row =>
      have hadded := added_flags row.2.Flags (h.flags row (mem_of_lookup hlookup)) ignore
      refine h.change hlookup _ (hadded ignore).1 fun other => ?_
      by_cases hsame : other=ignore
      · exact Or.inr (hsame ▸ hlimit)
      · exact Or.inl ((hadded other).2 hsame)

theorem Kept.removeFromSocialList (h : social.Kept) (friendGuid : ℕ) (ignore : Bool) :
    (social.RemoveFromSocialList friendGuid ignore).Kept := by
  unfold RemoveFromSocialList
  cases hlookup : lookup Prod.fst friendGuid social.m_playerSocialMap with
  | none => exact h
  | some row =>
    have hdropped := dropped_flags row.2.Flags (h.flags row (mem_of_lookup hlookup)) ignore
    dsimp only
    split
    · exact h.remove friendGuid
    · rename_i hne
      exact h.change hlookup _ ((hdropped ignore).1.resolve_left hne)
        fun other => Or.inl (hdropped other).2

theorem Kept.setFriendNote (h : social.Kept) (friendGuid : ℕ) (note : List UInt8) :
    (social.SetFriendNote friendGuid note).Kept := by
  unfold SetFriendNote
  cases hlookup : lookup Prod.fst friendGuid social.m_playerSocialMap with
  | none => exact h
  | some row =>
    exact h.change hlookup _ (h.flags row (mem_of_lookup hlookup)) fun _ => Or.inl id

/-- What is read at a login is all of the list. -/
theorem Kept.relog (h : social.Kept) (order : (rows : Rows) → { result // result.Perm rows }) :
    (social.step (.relog order)).m_playerSocialMap=(order social.rows).1 := by
  have hperm := (order social.rows).2.trans h.same.symm
  have hlength := hperm.length_eq.trans_le h.length_le
  change LoadFromDB [] ((order social.rows).1.take 255)=_
  rw [List.take_of_length_le (hlength.trans (by decide))]
  exact LoadFromDB_eq [] _ ((hperm.map Prod.fst).nodup_iff.mpr h.keys) hlength

theorem Kept.step (h : social.Kept) (a : Action) : (social.step a).Kept := by
  cases a with
  | add friendGuid ignore => exact h.addToSocialList friendGuid ignore
  | remove friendGuid ignore => exact h.removeFromSocialList friendGuid ignore
  | setNote friendGuid note => exact h.setFriendNote friendGuid note
  | relog order =>
    have hperm := (order social.rows).2.trans h.same.symm
    have hload := h.relog order
    refine ⟨hload ▸ (order social.rows).2,hload ▸ (hperm.map Prod.fst).nodup_iff.mpr h.keys,
      fun a ha => h.flags a (hperm.mem_iff.mp (hload ▸ ha)),fun ignore => ?_⟩
    rw [GetNumberOfSocialsWithFlag,hload,hperm.countP_eq]
    exact h.limits ignore

end PlayerSocial

/-- Whatever is added, removed and noted, the list stays within its limits and its rows are in
the database, so that a login in any order of the rows reads the same list. -/
theorem social_lists_read_back (actions : List Action)
    (order : (rows : Rows) → { result : Rows // result.Perm rows }) :
    let social := run PlayerSocial.step ⟨[],[]⟩ actions
    social.m_playerSocialMap.Perm social.rows ∧
      social.GetNumberOfSocialsWithFlag SOCIAL_FLAG_FRIEND ≤ SOCIALMGR_FRIEND_LIMIT ∧
      social.GetNumberOfSocialsWithFlag SOCIAL_FLAG_IGNORED ≤ SOCIALMGR_IGNORE_LIMIT ∧
      (social.step (.relog order)).m_playerSocialMap.Perm social.m_playerSocialMap := by
  intro social
  have hstart : PlayerSocial.Kept ⟨[],[]⟩ :=
    ⟨List.Perm.nil,List.nodup_nil,nofun,fun _ => Nat.zero_le _⟩
  have h : social.Kept := run_invariant_always (fun _ a h => h.step a) hstart actions
  refine ⟨h.same,h.limits false,h.limits true,?_⟩
  rw [h.relog order]
  exact (order social.rows).2.trans h.same.symm

end Projectnelth.SocialLists
