import Mathlib
import Projectnelth.ConditionSearch

/-!
# Condition lists as an or of ands

A list of conditions is met where all loaded rows of one else group hold, whatever the order of the
rows. The owner of the second target, which a row about the third one puts there, stays there for
the rows behind it, and the second target is read without a check: lists are evaluated as they are
meant if no row that is asked finds another answer in what the rows before it left.
-/

namespace Projectnelth.ConditionModel

open OrderedMap GroupedWalk

section Rows

variable {Obj : Type*} [DecidableEq Obj]

/-! ## What a row says of the targets that were supplied -/

/-- The object a row is about: for the third target the owner of the second one before what was
supplied, and none where the second is missing. -/
def Condition.subject (w : World Obj) (info : ConditionSourceInfo Obj) (c : Condition) :
    Option Obj :=
  if c.conditionTarget=2 then
    info.target1.bind fun anchor => (anchorOwner w anchor).orElse fun _ => info.target2
  else info.target c.conditionTarget

/-- The answer of a row about the targets that were supplied. -/
def Condition.answer (w : World Obj) (info : ConditionSourceInfo Obj) (c : Condition) :
    Option Bool :=
  (c.subject w info).bind (condMeets w info c)

/-- A row holds: its target is there, the question has the answer that is asked for, and the script
agrees. -/
def Condition.HoldsOn (w : World Obj) (info : ConditionSourceInfo Obj) (c : Condition) : Prop :=
  c.answer w info=some (!c.negativeCondition) ∧ w.onConditionCheck c info=true

/-- A row holds, or the list that it refers to is empty or has a group all of whose loaded rows
hold. A list that is not there is empty. -/
inductive Condition.Holds (w : World Obj) (templates : List (ℕ×List Condition))
    (info : ConditionSourceInfo Obj) : Condition → Prop
  /-- A row of its own. -/
  | plain {c : Condition} (own : c.referenceId=0) (holds : c.HoldsOn w info) :
    Holds w templates info c
  /-- A list that is not there. -/
  | missing {c : Condition} (reference : c.referenceId≠0)
    (none_found : find c.referenceId templates=none) : Holds w templates info c
  /-- An empty list. -/
  | empty {c : Condition} (reference : c.referenceId≠0)
    (found : find c.referenceId templates=some []) : Holds w templates info c
  /-- A list with a group all of whose loaded rows hold. -/
  | group {c : Condition} {rows : List Condition} {c₀ : Condition} (reference : c.referenceId≠0)
    (found : find c.referenceId templates=some rows) (mem : c₀∈rows)
    (loaded : c₀.isLoaded=true)
    (all : ∀ d∈rows,d.isLoaded=true → d.elseGroup=c₀.elseGroup → Holds w templates info d) :
    Holds w templates info c

/-- There is an else group all of whose loaded rows hold. -/
def GroupHolds (w : World Obj) (templates : List (ℕ×List Condition))
    (info : ConditionSourceInfo Obj) (conditions : List Condition) : Prop :=
  ∃ c₀∈conditions,c₀.isLoaded=true ∧ ∀ c∈conditions,c.isLoaded=true →
    c.elseGroup=c₀.elseGroup → c.Holds w templates info

def isObjectMeetToConditions (w : World Obj) (store : ReferenceStore)
    (info : ConditionSourceInfo Obj) (conditions : List Condition) :
    Option (Bool×ConditionSourceInfo Obj) :=
  if conditions=[] then some (true,info)
  else isObjectMeetToConditionList w store info conditions

/-- In every order a list is answered, and it is met where it is empty or one of its groups holds
on the targets that were supplied. -/
def OrOfAnds (w : World Obj) (store : ReferenceStore) (info : ConditionSourceInfo Obj)
    (conditions : List Condition) : Prop :=
  ∀ list : List Condition,list.Perm conditions →
    ∃ met info',isObjectMeetToConditions w store info list=some (met,info') ∧
      (met=true ↔ conditions=[] ∨ GroupHolds w store.templates info conditions)

/-! ## The rows that are asked -/

/-- What a row asks: itself, or the rows of the list that it refers to. -/
def rowAsks (templates : List (ℕ×List Condition)) (list : List Condition → List Condition)
    (c : Condition) : List Condition :=
  if c.referenceId≠0 then (find c.referenceId templates).elim [] list else [c]

open Classical in
/-- The rows that are asked behind some rows: those in whose groups all rows before hold. -/
noncomputable def listAsks (w : World Obj) (templates : List (ℕ×List Condition))
    (info : ConditionSourceInfo Obj) (list : List Condition → List Condition) :
    List Condition → List Condition → List Condition
  | _,[] => []
  | before,c::rows =>
    (if ∀ d∈before,d.elseGroup=c.elseGroup → d.Holds w templates info then
      rowAsks templates list c else [])++listAsks w templates info list (before++[c]) rows

/-- The rows that are asked within a bound on the chains of references. -/
noncomputable def asksWithin (w : World Obj) (templates : List (ℕ×List Condition))
    (info : ConditionSourceInfo Obj) : ℕ → List Condition → List Condition
  | 0,rows => listAsks w templates info (fun _ => []) [] (rows.filter Condition.isLoaded)
  | depth+1,rows =>
    listAsks w templates info (asksWithin w templates info depth) []
      (rows.filter Condition.isLoaded)

/-- The rows that are asked of a list, in their order. -/
noncomputable def asked (w : World Obj) (store : ReferenceStore) (info : ConditionSourceInfo Obj)
    (conditions : List Condition) : List Condition :=
  asksWithin w store.templates info store.depth conditions

/-- The second target is there where its owner is asked about. -/
def Condition.Anchored (info : ConditionSourceInfo Obj) (c : Condition) : Prop :=
  c.conditionTarget=2 → info.target1≠none

/-- The targets that rows left, with the owner of the second one in the third place if the row asks
about it. -/
def Condition.reanchor (w : World Obj) (info s : ConditionSourceInfo Obj) (c : Condition) :
    ConditionSourceInfo Obj :=
  if c.conditionTarget=2 then
    match info.target1.bind (anchorOwner w) with
    | some owner => {s with target2 := some owner}
    | none => s
  else s

/-- What a row leaves: itself as the failed one too if its question is not answered as asked. -/
def Condition.leaves (w : World Obj) (info s : ConditionSourceInfo Obj) (c : Condition) :
    ConditionSourceInfo Obj :=
  if c.answer w info=some c.negativeCondition then
    {c.reanchor w info s with lastFailedCondition := some c}
  else c.reanchor w info s

/-- The question of a row has the answer that it has on the supplied targets, and if this is the one
that is asked for so has the script. -/
structure Condition.Unmoved (w : World Obj) (info s : ConditionSourceInfo Obj) (c : Condition) :
    Prop where
  question : (c.subject w info).bind (condMeets w (c.reanchor w info s) c)=c.answer w info
  script : c.answer w info=some (!c.negativeCondition) →
    w.onConditionCheck c (c.reanchor w info s)=w.onConditionCheck c info

/-- Rows that are asked one behind the other, each anchored and unmoved by those before it. -/
def Supplied (w : World Obj) (info : ConditionSourceInfo Obj) :
    ConditionSourceInfo Obj → List Condition → Prop
  | _,[] => True
  | s,c::l => c.Anchored info ∧ c.Unmoved w info s ∧ Supplied w info (c.leaves w info s) l

/-- Rows that are asked one behind the other, one of which has no second target to ask about while
none before it is moved. -/
def Stops (w : World Obj) (info : ConditionSourceInfo Obj) :
    ConditionSourceInfo Obj → List Condition → Prop
  | _,[] => False
  | s,c::l => ¬c.Anchored info ∨ c.Unmoved w info s ∧ Stops w info (c.leaves w info s) l

variable {w : World Obj} {templates : List (ℕ×List Condition)} {rows : List Condition}
  {info s : ConditionSourceInfo Obj} {c : Condition} {stores : LoadingStores}

theorem supplied_append {l₁ l₂ : List Condition} :
    Supplied w info s (l₁++l₂) ↔ Supplied w info s l₁ ∧
      Supplied w info (l₁.foldl (Condition.leaves w info) s) l₂ := by
  induction l₁ generalizing s with
  | nil => exact (and_iff_right trivial).symm
  | cons c l₁ ih => simp only [List.cons_append,Supplied,ih,List.foldl_cons,and_assoc]

theorem stops_append {l₁ l₂ : List Condition} :
    Stops w info s (l₁++l₂) → Stops w info s l₁ ∨ Supplied w info s l₁ ∧
      Stops w info (l₁.foldl (Condition.leaves w info) s) l₂ := by
  induction l₁ generalizing s with
  | nil => exact fun h => Or.inr ⟨trivial,h⟩
  | cons c l₁ ih =>
    rintro (hanchor | ⟨hunmoved,hrest⟩)
    · exact Or.inl (Or.inl hanchor)
    by_cases hanchor : c.Anchored info
    · refine (ih hrest).imp (fun h => Or.inr ⟨hunmoved,h⟩) fun h => ?_
      exact ⟨⟨hanchor,hunmoved,h.1⟩,h.2⟩
    · exact Or.inl (Or.inl hanchor)

/-! ## One row -/

/-- The targets that rows leave: the owner of the second one may be in the third place. -/
structure Left (w : World Obj) (info s : ConditionSourceInfo Obj) : Prop where
  first : s.target0=info.target0
  second : s.target1=info.target1
  third : s.target2=info.target2 ∨
    ∃ owner,info.target1.bind (anchorOwner w)=some owner ∧ s.target2=some owner

omit [DecidableEq Obj] in
theorem left_reanchor (h : Left w info s) (c : Condition) : Left w info (c.reanchor w info s) := by
  unfold Condition.reanchor
  split_ifs
  · cases howner : info.target1.bind (anchorOwner w) with
    | none => exact h
    | some owner => exact ⟨h.first,h.second,Or.inr ⟨owner,howner,rfl⟩⟩
  · exact h

theorem left_leaves (h : Left w info s) (c : Condition) : Left w info (c.leaves w info s) := by
  have hleft := left_reanchor h c
  unfold Condition.leaves
  split_ifs
  · exact ⟨hleft.first,hleft.second,hleft.third⟩
  · exact hleft

theorem left_foldl (h : Left w info s) (l : List Condition) :
    Left w info (l.foldl (Condition.leaves w info) s) := by
  induction l generalizing s with
  | nil => exact h
  | cons c l ih => exact ih (left_leaves h c)

/-- An anchored row looks at the object that it is about, whatever other rows left. -/
theorem ownerTarget_left (hleft : Left w info s) (hanchor : c.Anchored info)
    (htarget : c.conditionTarget < 3) :
    ownerTarget w s c=some (c.reanchor w info s) ∧
      (c.reanchor w info s).target c.conditionTarget=c.subject w info := by
  unfold ownerTarget Condition.reanchor Condition.subject
  by_cases htwo : c.conditionTarget=2
  · obtain ⟨anchor,hanchor⟩ := Option.ne_none_iff_exists'.mp (hanchor htwo)
    rw [if_pos htwo,if_pos htwo,if_pos htwo,hleft.second,hanchor,Option.map_some,Option.bind_some,
      Option.bind_some,htwo]
    cases howner : anchorOwner w anchor with
    | some owner => exact ⟨rfl,rfl⟩
    | none =>
      refine ⟨rfl,hleft.third.resolve_right ?_⟩
      rintro ⟨owner,howner',-⟩
      rw [hanchor,Option.bind_some,howner] at howner'
      cases howner'
  · rw [if_neg htwo,if_neg htwo,if_neg htwo]
    refine ⟨rfl,?_⟩
    match hindex : c.conditionTarget with
    | 0 => exact hleft.first
    | 1 => exact hleft.second
    | n+2 => omega

/-- What some rows reply: the answer that they hold, or nothing where one of them stops. -/
structure Replies (w : World Obj) (info s : ConditionSourceInfo Obj) (asks : List Condition)
    (holds : Prop) (reply : Option (Bool×ConditionSourceInfo Obj)) : Prop where
  answers : Supplied w info s asks →
    ∃ met,reply=some (met,asks.foldl (Condition.leaves w info) s) ∧ (met=true ↔ holds)
  stops : Stops w info s asks → reply=none

/-- A checked row replies as it holds if it is anchored and unmoved. -/
theorem meets_replies (hleft : Left w info s) (hvalid : isConditionTypeValid stores c=true) :
    Replies w info s [c] (c.HoldsOn w info) (c.meets w s) := by
  have htarget := target_lt_of_valid hvalid
  unfold Condition.meets
  rw [if_pos htarget]
  refine ⟨fun ⟨hanchor,hunmoved,_⟩ => ?_,fun h => ?_⟩
  swap
  · obtain ⟨htwo,hnone⟩ := Classical.not_imp.mp (h.resolve_right fun h => h.2)
    rw [ownerTarget,if_pos htwo,hleft.second,not_not.mp hnone]
    rfl
  obtain ⟨howner,hsubject⟩ := ownerTarget_left hleft hanchor htarget
  rw [howner,Option.bind_some,hsubject,List.foldl_cons,List.foldl_nil]
  unfold Condition.HoldsOn Condition.leaves
  have hquestion := hunmoved.question
  have hscript := hunmoved.script
  unfold Condition.answer at *
  cases hobject : c.subject w info with
  | none => exact ⟨false,rfl,by simp⟩
  | some object =>
    obtain ⟨met,hmet⟩ := @condMeets_returns _ _ _ _ w info hvalid object
    rw [hobject,Option.bind_some,Option.bind_some,hmet] at hquestion
    rw [hobject,Option.bind_some,hmet] at hscript
    dsimp only
    rw [Option.bind_some,hquestion,hmet,Option.map_some]
    by_cases hfails : met=c.negativeCondition
    · refine ⟨false,?_,?_⟩
      · rw [if_pos (congrArg some hfails),hfails]
        cases c.negativeCondition <;> rfl
      · rw [hfails]
        cases c.negativeCondition <;> simp
    · have hasked : met=!c.negativeCondition := Bool.eq_not_of_ne hfails
      refine ⟨w.onConditionCheck c info,?_,?_⟩
      · rw [if_neg fun h => hfails (Option.some.inj h),← hscript (congrArg some hasked),hasked]
        cases c.negativeCondition <;> rfl
      · rw [hasked]
        exact (and_iff_right rfl).symm

/-! ## Lists -/

/-- A row that refers to a list holds where the list does. -/
theorem holds_reference (href : c.referenceId≠0)
    (hfound : find c.referenceId templates=some rows) (hrows : rows≠[]) :
    c.Holds w templates info ↔ GroupHolds w templates info rows := by
  constructor
  · intro h
    cases h with
    | plain hown _ => exact absurd hown href
    | missing _ hnone =>
        rw [hnone] at hfound
        cases hfound
    | empty _ hempty =>
        rw [hempty] at hfound
        injection hfound with heq
        exact absurd heq.symm hrows
    | group _ hother hmem hload hall =>
        rw [hother] at hfound
        injection hfound with heq
        subst heq
        exact ⟨_,hmem,hload,hall⟩
  · rintro ⟨c₀,hmem,hload,hall⟩
    exact Condition.Holds.group href hfound hmem hload hall

/-- A group that has not failed lets the one thing through that there is. -/
def passedMeaning : Meaning groupPassed Unit where
  valid _ := True
  lets passed _ := passed=true
  thing := ()
  widest_valid := trivial
  narrow_valid _ _ := trivial
  widest _ := rfl
  narrow b b' _ := Bool.and_eq_true_iff
  dead {b} _ := by
    change (!b)=true ↔ _
    rw [Bool.not_eq_true',← Bool.not_eq_true]
    exact ⟨fun h _ => h,fun h => h ()⟩

/-- The passed groups after some rows. -/
abbrev PassedKept (w : World Obj) (templates : List (ℕ×List Condition))
    (info : ConditionSourceInfo Obj) (before : List Condition) (m : List (ℕ×Bool)) : Prop :=
  Kept passedMeaning Condition.elseGroup (fun c _ => c.Holds w templates info) before m

theorem walk_replies {before l : List Condition} {m : List (ℕ×Bool)}
    {list : List Condition → List Condition}
    {row : ConditionSourceInfo Obj → Condition → Option (Bool×ConditionSourceInfo Obj)}
    (hrow : ∀ c∈l,∀ s,Left w info s →
      Replies w info s (rowAsks templates list c) (c.Holds w templates info) (row s c))
    (h : PassedKept w templates info before m) (hleft : Left w info s) :
    (Supplied w info s (listAsks w templates info list before l) →
      ∃ m',walk groupPassed Condition.elseGroup row m s l=
          some (m',(listAsks w templates info list before l).foldl (Condition.leaves w info) s) ∧
        PassedKept w templates info (before++l) m') ∧
    (Stops w info s (listAsks w templates info list before l) →
      walk groupPassed Condition.elseGroup row m s l=none) := by
  induction l generalizing before m s with
  | nil => exact ⟨fun _ => ⟨m,rfl,by rwa [List.append_nil]⟩,False.elim⟩
  | cons c l ih =>
    have hrest := fun d hd => hrow d (List.mem_cons_of_mem c hd)
    unfold walk listAsks
    by_cases hlive : ∀ d∈before,d.elseGroup=c.elseGroup → d.Holds w templates info
    · obtain ⟨hvisit,hkept⟩ := h.visit_live ⟨(),hlive⟩
      rw [if_pos hlive,hvisit]
      obtain ⟨hanswers,hstops⟩ := hrow c List.mem_cons_self s hleft
      have hbehind := fun met (hholds : met=true ↔ c.Holds w templates info) =>
        ih hrest (hkept met fun _ => hholds) (left_foldl hleft (rowAsks templates list c))
      refine ⟨fun hs => ?_,fun hs => ?_⟩
      · obtain ⟨hs₁,hs₂⟩ := supplied_append.mp hs
        obtain ⟨met,hmet,hholds⟩ := hanswers hs₁
        obtain ⟨m',hwalk,hkept'⟩ := (hbehind met hholds).1 hs₂
        rw [hmet,List.foldl_append]
        exact ⟨m',hwalk,by rwa [List.append_assoc] at hkept'⟩
      · rcases stops_append hs with hs | ⟨hs₁,hs₂⟩
        · rw [hstops hs]
          rfl
        · obtain ⟨met,hmet,hholds⟩ := hanswers hs₁
          rw [hmet]
          exact (hbehind met hholds).2 hs₂
    · obtain ⟨hvisit,hkept⟩ := h.visit_dead fun hx => hlive (hx.elim fun _ => id)
      rw [if_neg hlive,hvisit,List.nil_append,Option.bind_some]
      have hih := ih hrest hkept hleft
      rwa [List.append_assoc] at hih

theorem holds_plain (own : c.referenceId=0) : c.Holds w templates info ↔ c.HoldsOn w info := by
  refine ⟨fun h => ?_,Condition.Holds.plain own⟩
  cases h with
  | plain _ holds => exact holds
  | missing href => exact absurd own href
  | empty href => exact absurd own href
  | group href => exact absurd own href

/-- A list whose references reply replies too. -/
theorem list_replies {conditions : List Condition} {list : List Condition → List Condition}
    {meets : ConditionSourceInfo Obj → List Condition → Option (Bool×ConditionSourceInfo Obj)}
    (hvalid : ∀ c∈conditions,c.isLoaded=true → c.referenceId=0 →
      isConditionTypeValid stores c=true)
    (hfull : ∀ r rows,find r templates=some rows → rows≠[])
    (hmeets : ∀ c∈conditions,∀ rows,c.referenceId≠0 → find c.referenceId templates=some rows →
      ∀ s,Left w info s →
        Replies w info s (list rows) (GroupHolds w templates info rows) (meets s rows))
    (hleft : Left w info s) :
    Replies w info s (listAsks w templates info list [] (conditions.filter Condition.isLoaded))
      (GroupHolds w templates info conditions) (listMeets w templates meets s conditions) := by
  have hrow : ∀ c∈conditions.filter Condition.isLoaded,∀ s,Left w info s →
      Replies w info s (rowAsks templates list c) (c.Holds w templates info)
        (rowMeets w templates meets s c) := by
    intro c hc s hleft
    obtain ⟨hmem,hload⟩ := List.mem_filter.mp hc
    unfold rowMeets rowAsks
    by_cases href : c.referenceId=0
    · rw [if_neg (not_not.mpr href),if_neg (not_not.mpr href),holds_plain href]
      exact meets_replies hleft (hvalid c hmem hload href)
    rw [if_pos href,if_pos href]
    cases hfound : find c.referenceId templates with
    | none =>
      exact ⟨fun _ => ⟨true,rfl,iff_of_true rfl (Condition.Holds.missing href hfound)⟩,False.elim⟩
    | some rows =>
      rw [holds_reference href hfound (hfull _ _ hfound)]
      exact hmeets c hmem rows href hfound s hleft
  obtain ⟨hanswers,hstops⟩ := walk_replies hrow (kept_nil passedMeaning _ _) hleft
  unfold listMeets
  refine ⟨fun hs => ?_,fun hs => by rw [hstops hs]; rfl⟩
  obtain ⟨m,hwalk,hkept⟩ := hanswers hs
  rw [hwalk]
  refine ⟨_,rfl,List.any_eq_true.trans ((hkept.exists_lets ()).trans ?_)⟩
  simp only [GroupHolds,List.nil_append,List.mem_filter,and_imp,and_assoc]

theorem within_replies {conditions : List Condition} (store : ReferenceStore) (depth : ℕ)
    (hvalid : ∀ c,Reached store.templates conditions c → c.isLoaded=true → c.referenceId=0 →
      isConditionTypeValid stores c=true)
    (hfull : ∀ r rows,find r store.templates=some rows → rows≠[])
    (hrank : ∀ c∈conditions,∀ rows,c.referenceId≠0 →
      find c.referenceId store.templates=some rows → store.rank c.referenceId < depth)
    (hleft : Left w info s) :
    Replies w info s (asksWithin w store.templates info depth conditions)
      (GroupHolds w store.templates info conditions)
      (listMeetsWithin w store.templates depth s conditions) := by
  induction depth generalizing conditions s with
  | zero =>
    refine list_replies (fun c hc => hvalid c (Reached.row hc)) hfull ?_ hleft
    exact fun c hc rows href hrows => absurd (hrank c hc rows href hrows) (Nat.not_lt_zero _)
  | succ depth ih =>
    refine list_replies (fun c hc => hvalid c (Reached.row hc)) hfull ?_ hleft
    intro c hc rows href hrows s hleft
    refine ih (fun d hd => hvalid d (Reached.of_template hc href hrows hd)) ?_ hleft
    intro d hd rows' href' hrows'
    have hlow := store.acyclic c.referenceId rows hrows d hd rows' href' hrows'
    have hhigh := hrank c hc rows href hrows
    omega

/-- Checked rows are an or of ands in every order if in each the rows that are asked are anchored
and unmoved by those before them; and if some order asks an owner of a second target that is not
there before a row is moved, they are not. -/
theorem conditions_or_of_ands (stores : LoadingStores) (store : ReferenceStore) (w : World Obj)
    (info : ConditionSourceInfo Obj) (conditions : List Condition)
    (hvalid : ∀ c,Reached store.templates conditions c → c.isLoaded=true → c.referenceId=0 →
      isConditionTypeValid stores c=true)
    (hfull : ∀ r rows,find r store.templates=some rows → rows≠[]) :
    ((∀ list : List Condition,list.Perm conditions →
        Supplied w info info (asked w store info list)) → OrOfAnds w store info conditions) ∧
      (OrOfAnds w store info conditions → ∀ list : List Condition,list.Perm conditions →
        ¬Stops w info info (asked w store info list)) := by
  have hreplies : ∀ list : List Condition,list.Perm conditions →
      Replies w info info (asked w store info list) (GroupHolds w store.templates info conditions)
        (isObjectMeetToConditionList w store info list) := by
    intro list hperm
    have hgroups : GroupHolds w store.templates info list ↔
        GroupHolds w store.templates info conditions := by
      simp only [GroupHolds,hperm.mem_iff]
    rw [← hgroups]
    refine within_replies store store.depth (fun c hc => hvalid c ?_) hfull
      (fun c _ rows _ hrows => store.bounded _ rows hrows) ⟨rfl,rfl,Or.inl rfl⟩
    induction hc with
    | row hmem => exact Reached.row (hperm.mem_iff.mp hmem)
    | template _ href hrows hmem ih => exact Reached.template ih href hrows hmem
  unfold OrOfAnds isObjectMeetToConditions
  refine ⟨fun hs list hperm => ?_,fun h list hperm hstops => ?_⟩
  · by_cases hempty : list=[]
    · rw [if_pos hempty]
      subst hempty
      exact ⟨true,info,rfl,iff_of_true rfl (Or.inl hperm.nil_eq.symm)⟩
    · have hnonempty : conditions≠[] := fun hnil => hempty (hnil ▸ hperm).eq_nil
      obtain ⟨met,hmet,hholds⟩ := (hreplies list hperm).answers (hs list hperm)
      rw [if_neg hempty,or_iff_right hnonempty]
      exact ⟨met,_,hmet,hholds⟩
  · obtain ⟨met,info',hmet,-⟩ := h list hperm
    have hnone := (hreplies list hperm).stops hstops
    split_ifs at hmet with hempty
    · rw [hempty] at hnone
      cases hdepth : store.depth <;>
        · unfold isObjectMeetToConditionList at hnone
          rw [hdepth] at hnone
          cases hnone
    · rw [hnone] at hmet
      cases hmet

end Rows

/-- A store with one template: a target that is alive and has a living owner. -/
def guardedReferences : ReferenceStore where
  templates := [(7,[readCondition ⟨-7,0,36,0,0,0,0,0,0⟩,readCondition ⟨-7,0,36,2,0,0,0,0,0⟩])]
  rank := fun _ => 0
  depth := 1
  bounded := fun _ _ _ => Nat.one_pos
  acyclic := fun r rows h c hc rows' href => by
    rw [(Prod.mk.inj (List.mem_singleton.mp (mem_of_find h))).2] at hc
    rcases List.mem_pair.mp hc with rfl | rfl <;> exact absurd rfl href

/-- A row that stands for the template. -/
def guardedRow : Condition := {readCondition (spellRow 0 (-7) 0 0 0) with referenceId := 7}

/-- The first target is not alive, so that nothing asks for the owner of a second one. -/
theorem conditions_or_of_ands_guarded :
    OrOfAnds quietWorld guardedReferences ⟨some .unit,none,none,none⟩ [guardedRow] := by
  refine (conditions_or_of_ands fullStores guardedReferences quietWorld _ _ ?_ ?_).1 ?_
  · intro c hc _ href
    cases hc with
    | row hmem =>
      rw [List.mem_singleton.mp hmem] at href
      cases href
    | template _ _ hfind hmem =>
      rw [(Prod.mk.inj (List.mem_singleton.mp (mem_of_find hfind))).2] at hmem
      rcases List.mem_pair.mp hmem with rfl | rfl <;> decide
  · intro r rows hfind
    rw [(Prod.mk.inj (List.mem_singleton.mp (mem_of_find hfind))).2]
    exact List.cons_ne_nil _ _
  · intro list hperm
    rw [List.perm_singleton.mp hperm]
    -- the second row of the template is not asked
    have hdead : ¬(readCondition ⟨-7,0,36,0,0,0,0,0,0⟩).Holds quietWorld guardedReferences.templates
        ⟨some .unit,none,none,none⟩ := fun h => Bool.noConfusion
      (Option.some.inj ((holds_plain rfl).mp h).1)
    have hskip : ¬∀ d∈[readCondition ⟨-7,0,36,0,0,0,0,0,0⟩],d.elseGroup=0 →
        d.Holds quietWorld guardedReferences.templates ⟨some .unit,none,none,none⟩ :=
      fun h => hdead (h _ List.mem_cons_self rfl)
    have hasked : asked quietWorld guardedReferences ⟨some .unit,none,none,none⟩ [guardedRow]=
        [readCondition ⟨-7,0,36,0,0,0,0,0,0⟩] := by
      change listAsks _ _ _ _ [] [guardedRow]=_
      rw [listAsks,if_pos fun _ hd => absurd hd List.not_mem_nil]
      change listAsks _ _ _ _ [] [_,_]++[]=_
      rw [listAsks,if_pos fun _ hd => absurd hd List.not_mem_nil,listAsks]
      exact congrArg (fun l => [readCondition ⟨-7,0,36,0,0,0,0,0,0⟩]++(l++[])++[]) (if_neg hskip)
    rw [hasked]
    exact ⟨fun htwo => absurd htwo (by decide),⟨rfl,fun _ => rfl⟩,trivial⟩

/-- With the first target only, a row about the owner reads the second one, which is not there. -/
theorem owner_row_stops :
    ¬∀ (stores : LoadingStores) (store : ReferenceStore) (w : World TypeID)
      (info : ConditionSourceInfo TypeID) (conditions : List Condition),
      (∀ c,Reached store.templates conditions c → c.isLoaded=true → c.referenceId=0 →
        isConditionTypeValid stores c=true) →
      (∀ r rows,find r store.templates=some rows → rows≠[]) →
      OrOfAnds w store info conditions := by
  intro h
  obtain ⟨met,info',hmet,_⟩ := h fullStores noReferences quietWorld ⟨some .unit,none,none,none⟩
    [readCondition (spellRow 0 36 2 0 0)] (by
      intro c hc _ _
      cases hc with
      | row hmem =>
        rw [List.mem_singleton.mp hmem]
        decide
      | template _ _ hfind => cases hfind) (by
      intro r rows hfind
      cases hfind) _ (List.Perm.refl _)
  cases hmet

/-- A world in which the owner of every object is a creature. -/
def ownedWorld : World TypeID := {quietWorld with getOwner := fun _ => some .unit}

/-- The owner that a row puts in the place of the third target is what the row behind it compares
with: the answer depends on the order. -/
theorem order_changes_answer :
    (isObjectMeetToConditions ownedWorld noReferences ⟨some .unit,some .player,none,none⟩
        [readCondition (spellRow 0 36 2 0 0),readCondition (spellRow 1 35 0 2 0)]).map Prod.fst=
      some true ∧
    (isObjectMeetToConditions ownedWorld noReferences ⟨some .unit,some .player,none,none⟩
        [readCondition (spellRow 1 35 0 2 0),readCondition (spellRow 0 36 2 0 0)]).map Prod.fst=
      some false :=
  ⟨rfl,rfl⟩

end Projectnelth.ConditionModel
