import Mathlib
import Projectnelth.ThreatModel

/-!
# Which victim is selected

A look at a reference settles the search or lets it go on. The search takes the first eligible
target that settles it, and where there is none and the last target is of second choice, the first
target at all that settles it. With the exact rates this is the aggro rule in some lists only.
-/

namespace Projectnelth.ThreatModel

/-- Exact arithmetic, with the rates as they are written. -/
def exactOps : FloatOps ℚ where
  ofInt := fun i => i
  add := fun x y => x+y
  sub := fun x y => x-y
  mul := fun x y => x*y
  div := fun x y => x/y
  meleeRate := 11/10
  rangedRate := 13/10

/-- What the search of a creature is given. -/
structure Fray where
  world : World ℚ
  refs : References ℚ
  list : List ℕ
  victim : Option ℕ
  live : ∀ r∈list,(refs r).isSome=true
  once : list.Nodup
  /-- The highest threat comes first. -/
  sorted : list.Pairwise fun a b => refs.getThreat exactOps b ≤ refs.getThreat exactOps a
  listed : ∀ v,victim=some v → v∈list

namespace Fray

variable {f : Fray} {v r t : ℕ} {l before after : List ℕ} {victim : Option ℕ}

/-- The victim that is selected. -/
def result (f : Fray) : Option ℕ :=
  ThreatContainer.selectNextVictim exactOps ⟨f.list,false⟩ f.world f.refs f.victim

/-- The threat of a reference. -/
def threat (f : Fray) (r : ℕ) : ℚ := f.refs.getThreat exactOps r

/-- The target of a reference. -/
def target (f : Fray) (r : ℕ) : ℕ := ((f.refs r).map (·.unitGuid)).getD 0

/-- The creature can attack the target. -/
def valid (f : Fray) (r : ℕ) : Bool := f.world.canCreatureAttack (f.target r)

/-- The target is immune, or under an effect that damage would break. -/
def second (f : Fray) (r : ℕ) : Bool := f.world.isSecondChoice (f.target r)

/-- The creature can attack the target and may prefer it. -/
def eligible (f : Fray) (r : ℕ) : Bool := f.valid r && !f.second r

/-- The rule: more than 1.3 times the threat, or more than 1.1 times in melee range. -/
def better (f : Fray) (v r : ℕ) : Bool :=
  13/10*f.threat v < f.threat r ||
    (11/10*f.threat v < f.threat r && f.world.isWithinMeleeRange (f.target r))

/-- The comparison of the code, which adds one. -/
def past (f : Fray) (v r : ℕ) : Bool :=
  13/10*f.threat v+1 < f.threat r ||
    (11/10*f.threat v+1 < f.threat r && f.world.isWithinMeleeRange (f.target r))

/-- The current victim is within a tenth. -/
def near (f : Fray) (v r : ℕ) : Bool := f.threat r ≤ 11/10*f.threat v

/-- A look at an attackable target ends the search. -/
def settles (f : Fray) : Option ℕ → ℕ → Bool
  | none,_ => true
  | some v,r => r=v || f.near v r || f.past v r

/-- A look at a target the search may prefer ends it. -/
def takes (f : Fray) (victim : Option ℕ) (r : ℕ) : Bool := f.eligible r && f.settles victim r

/-- A look at a target ends the search once there is no preference. -/
def takesAny (f : Fray) (victim : Option ℕ) (r : ℕ) : Bool := f.valid r && f.settles victim r

/-- The victim a look ends the search with. -/
def choice (f : Fray) : Option ℕ → ℕ → ℕ
  | none,r => r
  | some v,r => if f.near v r && f.valid v then v else r

/-! ## One look -/

/-- A look at a reference. -/
def look (f : Fray) (victim : Option ℕ) (r : ℕ) : Option ℕ :=
  match considerVictim exactOps f.world f.refs victim r (f.target r) with
  | .found t => some t
  | .goOn => none

theorem valid_of_live (h : (f.refs v).isSome=true) :
    ((f.refs v).any fun ref => f.world.canCreatureAttack ref.unitGuid)=f.valid v := by
  obtain ⟨ref,href⟩ := Option.isSome_iff_exists.mp h
  unfold valid target
  rw [href]
  rfl

theorem look_eq (hlive : ∀ v,victim=some v → (f.refs v).isSome=true) (r : ℕ) :
    f.look victim r=
      if f.takesAny victim r then some (f.choice victim r) else none := by
  unfold look considerVictim takesAny
  change (match if f.valid r=true then _ else Choice.goOn with
    | .found t => some t
    | .goOn => none)=_
  cases hvalid : f.valid r with
  | false => rfl
  | true =>
    cases victim with
    | none => rfl
    | some v =>
      rw [if_pos rfl]
      have hattack := valid_of_live (hlive v rfl)
      have hmul : exactOps.mul exactOps.meleeRate (f.refs.getThreat exactOps v)=
          11/10*f.threat v := rfl
      have hranged : exactOps.mul exactOps.rangedRate (f.refs.getThreat exactOps v)=
          13/10*f.threat v := rfl
      have hmargin : ∀ x, exactOps.add x (exactOps.ofInt 1)=x+1 := by
        intro x
        simp only [exactOps,Int.cast_one]
      have hthreat : f.refs.getThreat exactOps r=f.threat r := rfl
      simp only [hattack,hmul,hranged,hmargin,hthreat,Bool.true_and]
      unfold settles choice near past
      by_cases hself : v=r
      · subst hself
        simp
      have hself' : r≠v := fun h => hself h.symm
      by_cases hnear : f.threat r ≤ 11/10*f.threat v
      · cases hv : f.valid v <;> simp [hself,hself',hnear,hv]
      · by_cases hover : 13/10*f.threat v+1 < f.threat r ∨ 11/10*f.threat v+1 < f.threat r ∧
            f.world.isWithinMeleeRange (f.target r)=true
        · simp [hself,hself',hnear,hover]
        · simp [hself,hself',hnear,hover]

/-- A loop goes on behind a look that does not end it. -/
theorem look_goOn (hlive : ∀ v,victim=some v → (f.refs v).isSome=true) (r : ℕ)
    (next : Option ℕ) :
    (match considerVictim exactOps f.world f.refs victim r (f.target r) with
      | .found t => some t
      | .goOn => next)=
      if f.takesAny victim r then some (f.choice victim r) else next := by
  have hlook := look_eq hlive r
  unfold look at hlook
  cases hcase : considerVictim exactOps f.world f.refs victim r (f.target r) with
  | found t =>
    rw [hcase] at hlook
    by_cases hp : f.takesAny victim r=true
    · rw [if_pos hp] at hlook ⊢
      exact hlook
    · rw [if_neg hp] at hlook
      cases hlook
  | goOn =>
    rw [hcase] at hlook
    by_cases hp : f.takesAny victim r=true
    · rw [if_pos hp] at hlook
      cases hlook
    · rw [if_neg hp]

/-! ## The whole search -/

theorem selectAny_eq (hlive : ∀ v,victim=some v → (f.refs v).isSome=true) (l : List ℕ) :
    selectAny exactOps f.world f.refs victim l=
      (l.find? (f.takesAny victim)).map (f.choice victim) := by
  induction l with
  | nil => rfl
  | cons r rest ih =>
    refine (look_goOn hlive r _).trans ?_
    rw [ih]
    by_cases hp : f.takesAny victim r=true
    · rw [if_pos hp,List.find?_cons_of_pos hp]
      rfl
    · rw [if_neg hp,List.find?_cons_of_neg hp]

/-- The last target of a part of the list is of second choice. -/
def endsSecond (f : Fray) (l : List ℕ) : Bool := (l.getLast?.map f.second).getD false

theorem endsSecond_cons (r : ℕ) (h : l≠[]) : f.endsSecond (r::l)=f.endsSecond l := by
  unfold endsSecond
  rw [List.getLast?_cons_of_ne_nil h]

theorem takes_of_preferred (h : f.second r=false) (victim : Option ℕ) :
    f.takes victim r=f.takesAny victim r := by
  unfold takes takesAny eligible
  rw [h]
  simp only [Bool.not_false,Bool.and_true]

theorem not_eligible (h : f.second r=true) : f.eligible r=false := by
  unfold eligible
  rw [h]
  simp only [Bool.not_true,Bool.and_false]

theorem not_takes (h : f.second r=true) : ¬f.takes victim r=true := by
  unfold takes
  rw [not_eligible h]
  simp only [Bool.false_and,Bool.false_eq_true,not_false_eq_true]

theorem preferred_step (hlive : ∀ v,victim=some v → (f.refs v).isSome=true)
    (hsecond : f.second r=false) (whole rest : List ℕ) :
    selectPreferred exactOps f.world f.refs whole victim (r::rest)=
      if f.takes victim r then some (f.choice victim r)
      else selectPreferred exactOps f.world f.refs whole victim rest := by
  rw [takes_of_preferred hsecond,← look_goOn hlive]
  exact if_neg (ne_true_of_eq_false hsecond)

theorem second_step (hsecond : f.second r=true) (whole rest : List ℕ) (h : rest≠[]) :
    selectPreferred exactOps f.world f.refs whole victim (r::rest)=
      selectPreferred exactOps f.world f.refs whole
        (if victim=some r then none else victim) rest := by
  change (if f.second r=true then (if rest≠[] then _ else _) else _)=_
  rw [if_pos hsecond,if_pos h]

theorem last_step (hsecond : f.second r=true) (whole : List ℕ) :
    selectPreferred exactOps f.world f.refs whole victim [r]=
      selectAny exactOps f.world f.refs victim whole := by
  change (if f.second r=true then (if ([] : List ℕ)≠[] then _ else _) else _)=_
  rw [if_pos hsecond,if_neg (by simp only [ne_eq,not_true_eq_false,not_false_eq_true])]

/-- A part of the list that is not the end of it, with a victim that no target of second choice
in it is. -/
theorem preferred_append (hlive : ∀ v,victim=some v → (f.refs v).isSome=true)
    (hkept : ∀ r∈before,victim=some r → f.second r=false) (whole : List ℕ) (h : after≠[]) :
    selectPreferred exactOps f.world f.refs whole victim (before++after)=
      ((before.find? (f.takes victim)).map (f.choice victim)).or
        (selectPreferred exactOps f.world f.refs whole victim after) := by
  induction before with
  | nil => rfl
  | cons r rest ih =>
    have ih := ih fun x hx => hkept x (List.mem_cons_of_mem r hx)
    have hne : rest++after≠[] := List.append_ne_nil_of_right_ne_nil rest h
    rw [List.cons_append]
    cases hsecond : f.second r with
    | true =>
      have hother : victim≠some r := fun hsame =>
        Bool.false_ne_true ((hkept r List.mem_cons_self hsame).symm.trans hsecond)
      rw [second_step hsecond whole (rest++after) hne,if_neg hother,ih,
        List.find?_cons_of_neg (not_takes hsecond)]
    | false =>
      rw [preferred_step hlive hsecond]
      by_cases hp : f.takes victim r=true
      · rw [if_pos hp,List.find?_cons_of_pos hp]
        rfl
      · rw [if_neg hp,List.find?_cons_of_neg hp,ih]

theorem preferred_end (hlive : ∀ v,victim=some v → (f.refs v).isSome=true)
    (hkept : ∀ r∈l.dropLast,victim=some r → f.second r=false) (whole : List ℕ) :
    selectPreferred exactOps f.world f.refs whole victim l=
      ((l.find? (f.takes victim)).map (f.choice victim)).or
        (if f.endsSecond l then selectAny exactOps f.world f.refs victim whole else none) := by
  rcases List.eq_nil_or_concat' l with rfl | ⟨before,r,rfl⟩
  · rfl
  rw [List.dropLast_concat] at hkept
  have hends : f.endsSecond (before++[r])=f.second r := by
    unfold endsSecond
    rw [List.getLast?_concat]
    rfl
  rw [preferred_append hlive hkept whole (List.cons_ne_nil r []),List.find?_append,hends]
  cases hsecond : f.second r with
  | true =>
    rw [last_step hsecond whole,List.find?_cons_of_neg (not_takes hsecond),List.find?_nil,
      Option.or_none,if_pos rfl]
  | false =>
    rw [preferred_step hlive hsecond,Option.map_or,Option.or_assoc]
    by_cases hp : f.takes victim r=true
    · rw [if_pos hp,List.find?_cons_of_pos hp]
      rfl
    · rw [if_neg hp,List.find?_cons_of_neg hp]
      rfl

/-! ## The rule -/

/-- The aggro rule. -/
structure Obeys (f : Fray) : Prop where
  /-- Nothing is returned exactly when nothing can be attacked. -/
  null : f.result=none ↔ ∀ r∈f.list,f.valid r=false
  /-- What is returned is listed and can be attacked. -/
  valid : ∀ t,f.result=some t → t∈f.list ∧ f.valid t=true
  /-- A target of second choice is returned only where every other valid one is of second choice. -/
  preferred : ∀ t,f.result=some t → f.second t=true →
    ∀ r∈f.list,f.valid r=true → f.second r=true
  /-- A preferred victim is left only for the first target that is better by the rule. -/
  rule : ∀ v t,f.victim=some v → f.eligible v=true → f.result=some t → t≠v →
    f.list.find? (fun r => f.eligible r && f.better v r)=some t

/-- Nothing can be attacked. -/
def NoneValid (f : Fray) : Prop := ∀ r∈f.list,f.valid r=false

/-- Nothing that can be attacked is preferred. -/
def NoneEligible (f : Fray) : Prop := ∀ r∈f.list,f.eligible r=false

/-- The targets listed before the victim. -/
def ahead (f : Fray) (v : ℕ) : List ℕ := f.list.takeWhile (·!=v)

/-- The targets listed after the victim. -/
def behind (f : Fray) (v : ℕ) : List ℕ := (f.list.dropWhile (·!=v)).tail

/-- The first target past the comparison of the code is the first that is better by the rule. -/
def Margin (f : Fray) (v : ℕ) : Prop :=
  ∀ t,(f.ahead v).find? (fun r => f.eligible r && f.past v r)=some t →
    f.list.find? (fun r => f.eligible r && f.better v r)=some t

/-- Without a victim a preferred target is there to be found, or the last one is of second choice
and makes the search start again. -/
def Unengaged (f : Fray) : Prop :=
  f.NoneValid ∨ (∃ r∈f.list,f.eligible r=true) ∨ f.endsSecond f.list=true

/-- With a victim that cannot be attacked the comparison with its threat lets a target through. -/
def Lost (f : Fray) (v : ℕ) : Prop :=
  f.NoneValid ∨ (∃ r∈f.list,f.takes (some v) r=true) ∨
    (f.NoneEligible ∧ f.endsSecond f.list=true ∧ ∃ r∈f.list,f.takesAny (some v) r=true)

/-- With a victim of second choice at the end of the list a preferred target is past it, or none
is there. -/
def Tail (f : Fray) (v : ℕ) : Prop :=
  (∃ r∈f.list,f.eligible r=true ∧ f.past v r=true) ∨
    (f.valid v=false ∧ ∃ r∈f.list,f.takes (some v) r=true) ∨
    (f.NoneEligible ∧ (f.NoneValid ∨ ∃ r∈f.list,f.takesAny (some v) r=true))

/-- With a victim of second choice before the end of the list a preferred target listed before it
is past it, or no preferred one listed before it is near. -/
def Passed (f : Fray) (v : ℕ) : Prop :=
  (∃ r∈f.ahead v,f.eligible r=true ∧ f.past v r=true) ∨
    (f.valid v=false ∧ ∃ r∈f.ahead v,f.takes (some v) r=true) ∨
    ((∀ r∈f.ahead v,f.takes (some v) r=false) ∧
      ((∃ r∈f.behind v,f.eligible r=true) ∨ f.NoneValid ∨
        (f.endsSecond f.list=true ∧
          (f.NoneEligible ∨ ∃ t,f.list.find? f.valid=some t ∧ f.eligible t=true))))

/-- The lists and victims for which the search obeys the rule. -/
def Fits (f : Fray) : Prop :=
  match f.victim with
  | none => f.Unengaged
  | some v =>
    if f.eligible v=true then f.Margin v
    else if f.second v=false then f.Lost v
    else if f.behind v=[] then f.Tail v
    else f.Passed v

/-! ## The order of the list -/

theorem mem_place (hplace : f.list=before++v::after) : v∈f.list := by
  rw [hplace]
  exact List.mem_append_right before List.mem_cons_self

theorem ahead_eq (hplace : f.list=before++v::after) (hnew : v∉before) : f.ahead v=before := by
  unfold ahead
  rw [hplace,List.takeWhile_append_of_pos]
  · simp
  · intro r hr
    have hne : r≠v := fun h => hnew (h ▸ hr)
    simp [hne]

theorem behind_eq (hplace : f.list=before++v::after) (hnew : v∉before) : f.behind v=after := by
  unfold behind
  rw [hplace,List.dropWhile_append_of_pos]
  · simp
  · intro r hr
    have hne : r≠v := fun h => hnew (h ▸ hr)
    simp [hne]

theorem threat_ahead (hplace : f.list=before++v::after) (hr : r∈before) :
    f.threat v ≤ f.threat r := by
  have hsorted := f.sorted
  rw [hplace] at hsorted
  have hcross := (List.pairwise_append.mp hsorted).2.2
  exact hcross r hr v List.mem_cons_self

/-- A near target listed before the victim is not past it. -/
theorem not_past_of_near (hle : f.threat v ≤ f.threat r) (hnear : f.near v r=true)
    (hle' : f.threat t ≤ f.threat r) : f.past v t=false := by
  unfold near at hnear
  unfold past
  have hnear := of_decide_eq_true hnear
  have hpos : 0 ≤ f.threat v := by linarith
  have hranged : ¬13/10*f.threat v+1 < f.threat t := by linarith
  have hmelee : ¬11/10*f.threat v+1 < f.threat t := by linarith
  simp [hranged,hmelee]

theorem past_settles (h : f.past v r=true) : f.settles (some v) r=true := by
  simp only [settles,h,Bool.or_true]

theorem takes_of_past (heligible : f.eligible r=true) (h : f.past v r=true) :
    f.takes (some v) r=true := by
  unfold takes
  rw [heligible,past_settles h]
  rfl

theorem takes_eligible (h : f.takes victim r=true) : f.eligible r=true :=
  (Bool.and_eq_true_iff.mp h).1

theorem eligible_valid (h : f.eligible r=true) : f.valid r=true :=
  (Bool.and_eq_true_iff.mp h).1

theorem eligible_preferred (h : f.eligible r=true) : f.second r=false := by
  have hright := (Bool.and_eq_true_iff.mp h).2
  simpa using hright

theorem eligible_of (hvalid : f.valid r=true) (hsecond : f.second r=false) :
    f.eligible r=true := by
  unfold eligible
  rw [hvalid,hsecond]
  rfl

theorem takesAny_valid (h : f.takesAny victim r=true) : f.valid r=true :=
  (Bool.and_eq_true_iff.mp h).1

theorem of_find_past (h : l.find? (fun t => f.eligible t && f.past v t)=some r) :
    f.eligible r=true ∧ f.past v r=true := by
  have hboth := List.find?_some (p := fun t => f.eligible t && f.past v t) h
  exact Bool.and_eq_true_iff.mp hboth

/-- Where the first target that ends the search is near, none listed before the victim is past it;
otherwise it is the first that is past it. -/
theorem first_past (hplace : f.list=before++v::after) (hnew : v∉before)
    (h : before.find? (f.takes (some v))=some r) :
    before.find? (fun t => f.eligible t && f.past v t)=
      if f.near v r then none else some r := by
  obtain ⟨htakes,front,back,hsplit,hearlier⟩ := List.find?_eq_some_iff_append.mp h
  have heligible := takes_eligible htakes
  have hr : r∈before := List.mem_of_find?_eq_some h
  have hfront : ∀ t∈front,¬(f.eligible t && f.past v t)=true := by
    intro t ht hboth
    obtain ⟨he,hp⟩ := Bool.and_eq_true_iff.mp hboth
    have hnot := hearlier t ht
    rw [takes_of_past he hp] at hnot
    cases hnot
  cases hnear : f.near v r with
  | true =>
    rw [if_pos rfl]
    rw [List.find?_eq_none]
    intro t ht
    rw [hsplit] at ht
    cases List.mem_append.mp ht with
    | inl ht => exact hfront t ht
    | inr ht =>
      have hle : f.threat t ≤ f.threat r := by
        cases List.mem_cons.mp ht with
        | inl hsame => rw [hsame]
        | inr hback =>
          have hsorted := f.sorted
          rw [hplace,hsplit] at hsorted
          have hhead := (List.pairwise_append.mp (List.pairwise_append.mp hsorted).1).2.1
          exact (List.pairwise_cons.mp hhead).1 t hback
      rw [not_past_of_near (threat_ahead hplace hr) hnear hle]
      simp only [Bool.and_false,Bool.false_eq_true,not_false_eq_true]
  | false =>
    rw [if_neg Bool.false_ne_true]
    have hne : r≠v := fun hsame => hnew (hsame ▸ hr)
    have hpast : f.past v r=true := by
      have hsettles := (Bool.and_eq_true_iff.mp htakes).2
      unfold settles at hsettles
      simpa [hne,hnear] using hsettles
    apply List.find?_eq_some_iff_append.mpr
    refine ⟨?_,front,back,hsplit,?_⟩
    · rw [heligible,hpast]
      rfl
    intro t ht
    have hnot := hfront t ht
    rw [Bool.not_eq_true] at hnot
    rw [hnot]
    rfl

/-! ## The result -/

theorem live_victim (f : Fray) : ∀ v,f.victim=some v → (f.refs v).isSome=true :=
  fun v h => f.live v (f.listed v h)

/-- The result where the victim is kept for the whole search. -/
theorem result_kept (hkept : ∀ r∈f.list.dropLast,f.victim=some r → f.second r=false) :
    f.result=((f.list.find? (f.takes f.victim)).map (f.choice f.victim)).or
      (if f.endsSecond f.list then
        (f.list.find? (f.takesAny f.victim)).map (f.choice f.victim) else none) := by
  unfold result ThreatContainer.selectNextVictim
  rw [preferred_end f.live_victim hkept,selectAny_eq f.live_victim]

theorem takes_none (f : Fray) : f.takes none=f.eligible := by
  funext r
  simp only [takes,settles,Bool.and_true]

theorem takesAny_none (f : Fray) : f.takesAny none=f.valid := by
  funext r
  simp only [takesAny,settles,Bool.and_true]

theorem choice_none (f : Fray) : f.choice none=id := rfl

theorem endsSecond_append (h : after≠[]) : f.endsSecond (before++after)=f.endsSecond after := by
  unfold endsSecond
  rw [List.getLast?_append_of_ne_nil before h]

theorem result_passed (hvictim : f.victim=some v) (hplace : f.list=before++v::after)
    (hnew : v∉before) (hsecond : f.second v=true) (h : after≠[]) :
    f.result=((before.find? (f.takes (some v))).map (f.choice (some v))).or
      ((after.find? f.eligible).or
        (if f.endsSecond f.list then f.list.find? f.valid else none)) := by
  have hlive := f.live_victim
  rw [hvictim] at hlive
  have hkept : ∀ r∈before,some v=some r → f.second r=false := by
    intro r hr hsame
    cases hsame
    exact absurd hr hnew
  have hends : f.endsSecond f.list=f.endsSecond after := by
    rw [hplace,endsSecond_append (List.cons_ne_nil v after),endsSecond_cons v h]
  have hnolive : ∀ u,(none : Option ℕ)=some u → (f.refs u).isSome=true := by
    intro u hu
    cases hu
  have hnokept : ∀ r∈after.dropLast,(none : Option ℕ)=some r → f.second r=false := by
    intro r _ hr
    cases hr
  unfold result ThreatContainer.selectNextVictim
  rw [hvictim]
  change selectPreferred exactOps f.world f.refs f.list (some v) f.list=_
  conv_lhs => rw [hplace]
  rw [preferred_append hlive hkept (before++v::after) (List.cons_ne_nil v after),
    second_step hsecond (before++v::after) after h,if_pos rfl,
    preferred_end hnolive hnokept,selectAny_eq hnolive,takes_none,takesAny_none,choice_none,
    Option.map_id,hends,hplace]
  rfl

/-! ## Victims the rule says nothing about -/

/-- A result that the rule allows when the victim may be left. -/
def Good (f : Fray) : Option ℕ → Prop
  | none => f.NoneValid
  | some t => t∈f.list ∧ f.valid t=true ∧ (f.second t=true → f.NoneEligible)

theorem noneEligible_iff :
    f.NoneEligible ↔ ∀ r∈f.list,f.valid r=true → f.second r=true := by
  constructor
  · intro h r hr hvalid
    cases hsecond : f.second r with
    | true => rfl
    | false =>
      have hnot := h r hr
      rw [eligible_of hvalid hsecond] at hnot
      cases hnot
  · intro h r hr
    cases heligible : f.eligible r with
    | false => rfl
    | true =>
      have hsecond := h r hr (eligible_valid heligible)
      rw [eligible_preferred heligible] at hsecond
      cases hsecond

theorem not_noneValid (hr : r∈f.list) (h : f.valid r=true) : ¬f.NoneValid := by
  intro hnone
  rw [hnone r hr] at h
  cases h

theorem not_noneEligible (hr : r∈f.list) (h : f.eligible r=true) : ¬f.NoneEligible := by
  intro hnone
  rw [hnone r hr] at h
  cases h

theorem noneEligible_of_noneValid (h : f.NoneValid) : f.NoneEligible := by
  intro r hr
  unfold eligible
  rw [h r hr]
  rfl

/-- What the rule says of a target that is returned. -/
theorem obeys_some (hresult : f.result=some t) :
    f.Obeys ↔ f.Good (some t) ∧ ∀ v,f.victim=some v → f.eligible v=true → t≠v →
      f.list.find? (fun r => f.eligible r && f.better v r)=some t := by
  constructor
  · intro h
    obtain ⟨hmem,hvalid⟩ := h.valid t hresult
    exact ⟨⟨hmem,hvalid,fun hsecond => noneEligible_iff.mpr (h.preferred t hresult hsecond)⟩,
      fun v hv heligible htv => h.rule v t hv heligible hresult htv⟩
  · rintro ⟨⟨hmem,hvalid,hsecond⟩,hrule⟩
    have honly : ∀ u,f.result=some u → u=t := fun u hu => Option.some.inj (hu.symm.trans hresult)
    refine ⟨iff_of_false (by rw [hresult]; rintro ⟨⟩) (not_noneValid hmem hvalid),?_,?_,?_⟩
    · intro u hu
      exact honly u hu ▸ ⟨hmem,hvalid⟩
    · intro u hu hs
      exact noneEligible_iff.mp (hsecond (honly u hu ▸ hs))
    · intro v u hv heligible hu huv
      exact honly u hu ▸ hrule v hv heligible (honly u hu ▸ huv)

theorem obeys_free (hfree : ∀ v,f.victim=some v → f.eligible v=false) :
    f.Obeys ↔ f.Good f.result := by
  cases hresult : f.result with
  | none =>
    have hno : ∀ u,f.result≠some u := fun u hu => Option.some_ne_none u (hu.symm.trans hresult)
    refine ⟨fun h => h.null.mp hresult,fun h => ⟨iff_of_true hresult h,?_,?_,?_⟩⟩
    · exact fun u hu => absurd hu (hno u)
    · exact fun u hu => absurd hu (hno u)
    · exact fun _ u _ _ hu => absurd hu (hno u)
  | some t =>
    refine (obeys_some hresult).trans (and_iff_left fun v hv heligible => ?_)
    exact absurd (heligible.symm.trans (hfree v hv)) Bool.noConfusion

/-- Where a search of the list finds nothing, nothing is what it looks for. -/
theorem none_of_find {p : ℕ → Bool} (h : l.find? p=none) : ∀ r∈l,p r=false := by
  intro r hr
  have hnot := List.find?_eq_none.mp h r hr
  rwa [Bool.not_eq_true] at hnot

theorem not_exists_of_find {p : ℕ → Bool} (h : l.find? p=none) : ¬∃ r∈l,p r=true := by
  rintro ⟨r,hr,hp⟩
  rw [none_of_find h r hr] at hp
  cases hp

theorem good_eligible (hr : r∈f.list) (h : f.eligible r=true) : f.Good (some r) := by
  refine ⟨hr,eligible_valid h,?_⟩
  intro hsecond
  rw [eligible_preferred h] at hsecond
  cases hsecond

theorem good_second (hr : r∈f.list) (hvalid : f.valid r=true) (hsecond : f.second r=true) :
    f.Good (some r) ↔ f.NoneEligible := by
  constructor
  · intro h
    exact h.2.2 hsecond
  · intro h
    exact ⟨hr,hvalid,fun _ => h⟩

/-- What ends the search only without preference is of second choice. -/
theorem second_of_takesAny (h : f.takesAny victim r=true) (hnot : ¬f.takes victim r=true) :
    f.second r=true := by
  cases hsecond : f.second r with
  | true => rfl
  | false =>
    rw [takes_of_preferred hsecond] at hnot
    exact absurd h hnot

theorem unengaged_iff (hvictim : f.victim=none) : f.Good f.result ↔ f.Unengaged := by
  have hresult := result_kept (f := f) (by
    intro r _ hr
    rw [hvictim] at hr
    cases hr)
  rw [hvictim,takes_none,takesAny_none,choice_none,Option.map_id,id_eq,id_eq] at hresult
  unfold Unengaged
  cases hfirst : f.list.find? f.eligible with
  | some t =>
    have hmem := List.mem_of_find?_eq_some hfirst
    have heligible := List.find?_some hfirst
    rw [hfirst] at hresult
    rw [hresult]
    exact iff_of_true (good_eligible hmem heligible) (Or.inr (Or.inl ⟨t,hmem,heligible⟩))
  | none =>
    have hnone : f.NoneEligible := none_of_find hfirst
    have hno := not_exists_of_find hfirst
    rw [hfirst,Option.none_or] at hresult
    cases hends : f.endsSecond f.list with
    | false =>
      rw [hends,if_neg Bool.false_ne_true] at hresult
      rw [hresult]
      simp only [hno,Bool.false_eq_true,or_false]
      rfl
    | true =>
      rw [hends,if_pos rfl] at hresult
      refine iff_of_true ?_ (Or.inr (Or.inr rfl))
      rw [hresult]
      cases hany : f.list.find? f.valid with
      | none => exact none_of_find hany
      | some t =>
        exact ⟨List.mem_of_find?_eq_some hany,List.find?_some hany,fun _ => hnone⟩

theorem lost_iff (hvictim : f.victim=some v) (hnot : f.valid v=false)
    (hsecond : f.second v=false) : f.Good f.result ↔ f.Lost v := by
  have hresult := result_kept (f := f) (by
    intro r _ hr
    rw [hvictim] at hr
    cases hr
    exact hsecond)
  have hchoice : f.choice (some v)=id := by
    funext r
    simp only [choice,hnot,Bool.and_false,Bool.false_eq_true,if_false,id_eq]
  rw [hvictim,hchoice,Option.map_id,id_eq,id_eq] at hresult
  unfold Lost
  cases hfirst : f.list.find? (f.takes (some v)) with
  | some t =>
    have hmem := List.mem_of_find?_eq_some hfirst
    have htakes := List.find?_some hfirst
    rw [hfirst] at hresult
    rw [hresult]
    exact iff_of_true (good_eligible hmem (takes_eligible htakes))
      (Or.inr (Or.inl ⟨t,hmem,htakes⟩))
  | none =>
    have hnone := List.find?_eq_none.mp hfirst
    have hno := not_exists_of_find hfirst
    rw [hfirst,Option.none_or] at hresult
    cases hends : f.endsSecond f.list with
    | false =>
      rw [hends,if_neg Bool.false_ne_true] at hresult
      rw [hresult]
      simp only [hno,Bool.false_eq_true,false_and,and_false,or_false]
      rfl
    | true =>
      rw [hends,if_pos rfl] at hresult
      rw [hresult]
      cases hany : f.list.find? (f.takesAny (some v)) with
      | none =>
        have hnoAny := not_exists_of_find hany
        simp only [hno,hnoAny,and_false,or_false]
        rfl
      | some t =>
        have hmem := List.mem_of_find?_eq_some hany
        have htakes := List.find?_some hany
        have hvalid := takesAny_valid htakes
        have hlow := second_of_takesAny htakes (hnone t hmem)
        have hnotNone := not_noneValid hmem hvalid
        have hsome : ∃ r∈f.list,f.takesAny (some v) r=true := ⟨t,hmem,htakes⟩
        rw [good_second hmem hvalid hlow]
        simp only [hno,hsome,hnotNone,and_true,false_or]

/-- The first target that ends the search before a victim of second choice. -/
theorem good_first (hplace : f.list=before++v::after) (hnew : v∉before)
    (hsecond : f.second v=true) (h : before.find? (f.takes (some v))=some t) :
    f.Good (some (f.choice (some v) t)) ↔
      (∃ r∈before,f.eligible r=true ∧ f.past v r=true) ∨
        (f.valid v=false ∧ ∃ r∈before,f.takes (some v) r=true) := by
  have hfirst := first_past hplace hnew h
  have htmem := List.mem_of_find?_eq_some h
  have htlist : t∈f.list := by
    rw [hplace]
    exact List.mem_append_left (v::after) htmem
  have htakes := List.find?_some h
  have heligible := takes_eligible htakes
  have hsome : ∃ r∈before,f.takes (some v) r=true := ⟨t,htmem,htakes⟩
  have hgood := good_eligible htlist heligible
  cases hnear : f.near v t with
  | false =>
    rw [hnear,if_neg Bool.false_ne_true] at hfirst
    obtain ⟨he,hp⟩ := of_find_past hfirst
    have hchoice : f.choice (some v) t=t := by
      simp only [choice,hnear,Bool.false_and,Bool.false_eq_true,if_false]
    rw [hchoice]
    exact iff_of_true hgood (Or.inl ⟨t,htmem,he,hp⟩)
  | true =>
    rw [hnear,if_pos rfl] at hfirst
    have hno : ¬∃ r∈before,f.eligible r=true ∧ f.past v r=true := by
      rintro ⟨r,hr,he,hp⟩
      have hnot := List.find?_eq_none.mp hfirst r hr
      rw [he,hp] at hnot
      exact hnot rfl
    cases hvalid : f.valid v with
    | false =>
      have hchoice : f.choice (some v) t=t := by
        simp only [choice,hvalid,Bool.and_false,Bool.false_eq_true,if_false]
      rw [hchoice]
      exact iff_of_true hgood (Or.inr ⟨rfl,hsome⟩)
    | true =>
      have hchoice : f.choice (some v) t=v := by
        simp only [choice,hnear,hvalid,Bool.and_self,if_true]
      rw [hchoice,good_second (mem_place hplace) hvalid hsecond]
      apply iff_of_false (not_noneEligible htlist heligible)
      simp only [hno,Bool.true_eq_false,false_and,or_self,not_false_eq_true]

/-- A victim of second choice is not what the search may prefer. -/
theorem find_takes_place (hplace : f.list=before++v::[]) (hsecond : f.second v=true) :
    f.list.find? (f.takes (some v))=before.find? (f.takes (some v)) := by
  rw [hplace,List.find?_append,List.find?_cons_of_neg (not_takes hsecond)]
  exact Option.or_none

theorem not_past_of_not_takes (hnone : ∀ r∈l,¬f.takes (some v) r=true) :
    ¬∃ r∈l,f.eligible r=true ∧ f.past v r=true := by
  rintro ⟨r,hr,he,hp⟩
  exact hnone r hr (takes_of_past he hp)

theorem exists_place (hplace : f.list=before++v::[]) (hno : f.eligible v=false)
    (p : ℕ → Prop) (hp : ∀ r,p r → f.eligible r=true) :
    (∃ r∈f.list,p r) ↔ ∃ r∈before,p r := by
  rw [hplace]
  constructor
  · rintro ⟨r,hr,h⟩
    cases List.mem_append.mp hr with
    | inl hr => exact ⟨r,hr,h⟩
    | inr hr =>
      cases List.mem_singleton.mp hr
      rw [hp v h] at hno
      cases hno
  · rintro ⟨r,hr,h⟩
    exact ⟨r,List.mem_append_left [v] hr,h⟩

theorem tail_iff (hvictim : f.victim=some v) (hplace : f.list=before++v::[])
    (hnew : v∉before) (hsecond : f.second v=true) : f.Good f.result ↔ f.Tail v := by
  have hresult := result_kept (f := f) (by
    intro r hr hsame
    rw [hvictim] at hsame
    cases hsame
    rw [hplace,List.dropLast_concat] at hr
    exact absurd hr hnew)
  have hends : f.endsSecond f.list=true := by
    unfold endsSecond
    rw [hplace,List.getLast?_concat]
    exact hsecond
  rw [hvictim,find_takes_place hplace hsecond,hends,if_pos rfl] at hresult
  have hno := not_eligible hsecond
  unfold Tail
  rw [exists_place hplace hno (fun r => f.eligible r=true ∧ f.past v r=true) fun r h => h.1,
    exists_place hplace hno (fun r => f.takes (some v) r=true) fun r h => takes_eligible h]
  cases hfirst : before.find? (f.takes (some v)) with
  | some t =>
    rw [hfirst] at hresult
    rw [hresult]
    have hgood := good_first hplace hnew hsecond hfirst
    have htlist : t∈f.list := by
      rw [hplace]
      exact List.mem_append_left [v] (List.mem_of_find?_eq_some hfirst)
    have hnotNone := not_noneEligible htlist (takes_eligible (List.find?_some hfirst))
    simp only [hnotNone,false_and,or_false]
    exact hgood
  | none =>
    have hnone := List.find?_eq_none.mp hfirst
    have hnoTakes := not_exists_of_find hfirst
    have hnoPast := not_past_of_not_takes hnone
    rw [hfirst,Option.map_none,Option.none_or] at hresult
    rw [hresult]
    simp only [hnoTakes,hnoPast,and_false,false_or]
    cases hany : f.list.find? (f.takesAny (some v)) with
    | none =>
      have hnoAny := not_exists_of_find hany
      simp only [hnoAny,or_false]
      constructor
      · intro h
        exact ⟨noneEligible_of_noneValid h,h⟩
      · intro h
        exact h.2
    | some t =>
      have hmem := List.mem_of_find?_eq_some hany
      have htakes := List.find?_some hany
      have hsome : ∃ r∈f.list,f.takesAny (some v) r=true := ⟨t,hmem,htakes⟩
      have hnot : ¬f.takes (some v) t=true := by
        rw [hplace] at hmem
        cases List.mem_append.mp hmem with
        | inl hr => exact hnone t hr
        | inr hr =>
          cases List.mem_singleton.mp hr
          exact not_takes hsecond
      have hlow := second_of_takesAny htakes hnot
      simp only [hsome,or_true,and_true,Option.map_some]
      -- Both the victim and the target found are of second choice.
      by_cases hback : (f.near v t && f.valid v)=true
      · have hchoice : f.choice (some v) t=v := by
          simp only [choice,hback,if_true]
        have hvalid := (Bool.and_eq_true_iff.mp hback).2
        rw [hchoice]
        exact good_second (mem_place hplace) hvalid hsecond
      · have hchoice : f.choice (some v) t=t := by
          simp only [choice,hback,if_false,Bool.false_eq_true]
        rw [hchoice]
        exact good_second hmem (takesAny_valid htakes) hlow

theorem passed_iff (hvictim : f.victim=some v) (hplace : f.list=before++v::after)
    (hnew : v∉before) (hsecond : f.second v=true) (h : after≠[]) :
    f.Good f.result ↔ f.Passed v := by
  have hresult := result_passed hvictim hplace hnew hsecond h
  unfold Passed
  rw [ahead_eq hplace hnew,behind_eq hplace hnew]
  cases hfirst : before.find? (f.takes (some v)) with
  | some t =>
    rw [hfirst] at hresult
    rw [hresult]
    have hgood := good_first hplace hnew hsecond hfirst
    have hnot : ¬∀ r∈before,f.takes (some v) r=false := by
      intro hall
      have hfalse := hall t (List.mem_of_find?_eq_some hfirst)
      rw [List.find?_some hfirst] at hfalse
      cases hfalse
    simp only [hnot,false_and,or_false]
    exact hgood
  | none =>
    have hnone := List.find?_eq_none.mp hfirst
    have hnoTakes := not_exists_of_find hfirst
    have hnoPast := not_past_of_not_takes hnone
    have hall := none_of_find hfirst
    rw [hfirst,Option.map_none,Option.none_or] at hresult
    rw [hresult,and_iff_right hall]
    simp only [hnoTakes,hnoPast,and_false,false_or]
    cases hnext : after.find? f.eligible with
    | some t =>
      have hmem := List.mem_of_find?_eq_some hnext
      have heligible := List.find?_some hnext
      have hlist : t∈f.list := by
        rw [hplace]
        exact List.mem_append_right before (List.mem_cons_of_mem v hmem)
      exact iff_of_true (good_eligible hlist heligible) (Or.inl ⟨t,hmem,heligible⟩)
    | none =>
      have hnoNext := not_exists_of_find hnext
      rw [Option.none_or]
      simp only [hnoNext,false_or]
      cases hends : f.endsSecond f.list with
      | false =>
        rw [if_neg Bool.false_ne_true]
        simp only [Bool.false_eq_true,false_and,or_false]
        rfl
      | true =>
        rw [if_pos rfl]
        simp only [true_and]
        cases hany : f.list.find? f.valid with
        | none =>
          have hnoneValid : f.NoneValid := none_of_find hany
          exact iff_of_true hnoneValid (Or.inl hnoneValid)
        | some t =>
          have hmem := List.mem_of_find?_eq_some hany
          have hvalid := List.find?_some hany
          have hnotNone := not_noneValid hmem hvalid
          simp only [hnotNone,false_or,Option.some.injEq,exists_eq_left']
          cases hlow : f.second t with
          | false =>
            have heligible := eligible_of hvalid hlow
            exact iff_of_true (good_eligible hmem heligible) (Or.inr heligible)
          | true =>
            rw [good_second hmem hvalid hlow,not_eligible hlow]
            simp only [Bool.false_eq_true,or_false]

/-! ## A victim that is not to be left lightly -/

theorem obeys_stay (hvictim : f.victim=some v) (heligible : f.eligible v=true)
    (hresult : f.result=some v) : f.Obeys :=
  (obeys_some hresult).mpr ⟨good_eligible (f.listed v hvictim) heligible,fun _ hu _ hne =>
    absurd (Option.some.inj (hvictim.symm.trans hu)) hne⟩

theorem obeys_leave (hvictim : f.victim=some v) (hv : f.eligible v=true) (htv : t≠v)
    (hmem : t∈f.list) (heligible : f.eligible t=true) (hresult : f.result=some t) :
    f.Obeys ↔ f.list.find? (fun r => f.eligible r && f.better v r)=some t := by
  refine (obeys_some hresult).trans ((and_iff_right (good_eligible hmem heligible)).trans ?_)
  refine ⟨fun h => h v hvictim hv htv,fun h u hu _ _ => ?_⟩
  exact Option.some.inj (hvictim.symm.trans hu) ▸ h

theorem margin_iff (hvictim : f.victim=some v) (heligible : f.eligible v=true) :
    f.Obeys ↔ f.Margin v := by
  obtain ⟨before,after,hplace,hnew⟩ := List.eq_append_cons_of_mem (f.listed v hvictim)
  have hresult := result_kept (f := f) (by
    intro r _ hr
    rw [hvictim] at hr
    cases hr
    exact eligible_preferred heligible)
  have hself : f.takes (some v) v=true := by
    unfold takes
    simp only [heligible,settles,decide_true,Bool.true_or,Bool.and_self]
  have hchoice : f.choice (some v) v=v := by
    simp only [choice,ite_self]
  have hfind : f.list.find? (f.takes (some v))=
      (before.find? (f.takes (some v))).or (some v) := by
    rw [hplace,List.find?_append,List.find?_cons_of_pos hself]
  rw [hvictim,hfind] at hresult
  unfold Margin
  rw [ahead_eq hplace hnew]
  cases hfirst : before.find? (f.takes (some v)) with
  | none =>
    rw [hfirst,Option.none_or,Option.map_some,hchoice] at hresult
    refine iff_of_true (obeys_stay hvictim heligible hresult) ?_
    intro t ht
    obtain ⟨he,hp⟩ := of_find_past ht
    have hnot := List.find?_eq_none.mp hfirst t (List.mem_of_find?_eq_some ht)
    exact absurd (takes_of_past he hp) hnot
  | some t =>
    have hmem := List.mem_of_find?_eq_some hfirst
    have hpast := first_past hplace hnew hfirst
    rw [hfirst,Option.some_or,Option.map_some,Option.some_or] at hresult
    rw [hpast]
    cases hnear : f.near v t with
    | true =>
      have hback : f.choice (some v) t=v := by
        simp only [choice,hnear,eligible_valid heligible,Bool.and_self,if_true]
      rw [hback] at hresult
      rw [if_pos rfl]
      refine iff_of_true (obeys_stay hvictim heligible hresult) ?_
      intro u hu
      cases hu
    | false =>
      have hstay : f.choice (some v) t=t := by
        simp only [choice,hnear,Bool.false_and,Bool.false_eq_true,if_false]
      rw [hstay] at hresult
      have htv : t≠v := fun hsame => hnew (hsame ▸ hmem)
      have hlist : t∈f.list := by
        rw [hplace]
        exact List.mem_append_left (v::after) hmem
      rw [if_neg Bool.false_ne_true,
        obeys_leave hvictim heligible htv hlist (takes_eligible (List.find?_some hfirst)) hresult]
      simp only [Option.some.injEq,forall_eq']

/-- The search obeys the aggro rule exactly for the lists and victims that fit. -/
theorem obeys_iff (f : Fray) : f.Obeys ↔ f.Fits := by
  unfold Fits
  cases hvictim : f.victim with
  | none =>
    have hfree : ∀ v,f.victim=some v → f.eligible v=false := by
      intro v hv
      rw [hvictim] at hv
      cases hv
    rw [obeys_free hfree]
    exact unengaged_iff hvictim
  | some v =>
    cases heligible : f.eligible v with
    | true =>
      change f.Obeys ↔ if f.eligible v=true then f.Margin v else _
      rw [if_pos heligible]
      exact margin_iff hvictim heligible
    | false =>
      have hfree : ∀ u,f.victim=some u → f.eligible u=false := by
        intro u hu
        rw [hvictim] at hu
        cases hu
        exact heligible
      have hnot : ¬f.eligible v=true := by
        rw [heligible]
        exact Bool.false_ne_true
      rw [obeys_free hfree]
      change f.Good f.result ↔ if f.eligible v=true then _ else
        if f.second v=false then f.Lost v else if f.behind v=[] then f.Tail v else f.Passed v
      rw [if_neg hnot]
      cases hsecond : f.second v with
      | false =>
        have hnot : f.valid v=false := by
          cases hvalid : f.valid v with
          | false => rfl
          | true =>
            rw [eligible_of hvalid hsecond] at heligible
            cases heligible
        rw [if_pos rfl]
        exact lost_iff hvictim hnot hsecond
      | true =>
        obtain ⟨before,after,hplace,hnew⟩ := List.eq_append_cons_of_mem (f.listed v hvictim)
        rw [behind_eq hplace hnew,if_neg (by simp only [Bool.true_eq_false,not_false_eq_true])]
        by_cases hafter : after=[]
        · subst hafter
          rw [if_pos rfl]
          exact tail_iff hvictim hplace hnew hsecond
        · rw [if_neg hafter]
          exact passed_iff hvictim hplace hnew hsecond hafter

/-! ## A victim under a control effect -/

/-- Two attackable targets, the second one under a control effect. -/
def pairWorld : World ℚ where
  getUnit := fun _ => true
  isGameMaster := fun _ => false
  isAlive := fun _ => true
  isInMap := fun _ => true
  inSamePhase := fun _ => true
  inFlight := fun _ => false
  isInAccessiblePlace := fun _ => true
  isWithinCombatRange := fun _ => true
  isSecondChoice := fun u => u==1
  canCreatureAttack := fun _ => true
  isWithinMeleeRange := fun _ => true
  redirectThreatPercent := fun _ => 0
  redirectThreatTarget := fun _ => none
  applySpellMod := fun _ x => x
  applyTotalThreatModifier := fun _ _ x => x
  charmerOrOwner := fun _ => none
  depth := fun _ => 0
  depth_lt := masterless

/-- The references of the two. -/
def pairRefs : References ℚ
  | 0 => some ⟨100,0,true,true,true⟩
  | 1 => some ⟨95,1,true,true,true⟩
  | _ => none

/-- The one under the control effect is the victim, with a little less threat. -/
def pairFray : Fray where
  world := pairWorld
  refs := pairRefs
  list := [0,1]
  victim := some 1
  live := by decide
  once := by decide
  sorted := by
    rw [List.pairwise_pair]
    norm_num [References.getThreat,pairRefs]
  listed := by
    intro v h
    cases h
    decide

/-- The victim is kept although the other target is preferred. -/
theorem not_obeys_pair : ¬pairFray.Obeys := by
  intro h
  have hchoice : pairFray.choice (some 1) 0=1 := by
    norm_num [choice,near,threat,valid,References.getThreat,pairFray,pairRefs,pairWorld]
  have htakes : pairFray.takes (some 1) 0=true := by
    norm_num [takes,eligible,settles,valid,second,near,threat,target,References.getThreat,
      pairFray,pairRefs,pairWorld]
  have hresult : pairFray.result=some 1 := by
    have hkept := result_kept (f := pairFray) (by decide)
    have hfind : pairFray.list.find? (pairFray.takes (some 1))=some 0 :=
      List.find?_cons_of_pos htakes
    change pairFray.result=((pairFray.list.find? (pairFray.takes (some 1))).map
      (pairFray.choice (some 1))).or _ at hkept
    rw [hfind,Option.map_some,hchoice,Option.some_or] at hkept
    exact hkept
  have hsecond := h.preferred 1 hresult rfl 0 (by decide) rfl
  cases hsecond

end Fray

end Projectnelth.ThreatModel
