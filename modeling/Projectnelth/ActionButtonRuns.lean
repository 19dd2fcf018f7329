import Mathlib
import Projectnelth.ActionButtonModel
import Projectnelth.RunInvariant

/-!
# The table of the action buttons follows the player

The mark of a button says what its row is: none for a new one, the same for an unchanged one, any
for one that is changed or deleted. Every request keeps that, and a save then makes the rows of
the active specialization those of the buttons.
-/

namespace Projectnelth.ActionButtonModel

open KeyedTable OrderedMap ActionButtonUpdateState RunInvariant

/-- The row a button is to have. -/
def ActionButton.content (ab : ActionButton) : Option Row :=
  if ab.uState=ACTIONBUTTON_DELETED then none else some (ab.GetAction,ab.GetType)

/-- What the mark of a button says of its row. -/
def ActionButton.Fits (ab : ActionButton) (row : Option Row) : Prop :=
  match ab.uState with
  | ACTIONBUTTON_UNCHANGED => row=some (ab.GetAction,ab.GetType)
  | ACTIONBUTTON_NEW => row=none
  | ACTIONBUTTON_CHANGED => row≠none
  | ACTIONBUTTON_DELETED => row≠none

/-- What the client is shown of a button. -/
def Player.shown (p : Player) (button : Button) : Option Row :=
  (find button p.m_actionButtons).bind ActionButton.content

/-- A button and its row: a button that is not in the map has none. -/
def Agrees (ab : Option ActionButton) (row : Option Row) : Prop :=
  match ab with
  | none => row=none
  | some ab => ab.Fits row

/-- The map of the active specialization agrees with its rows. -/
structure Tracked (w : World) : Prop where
  sorted : Sorted w.player.m_actionButtons
  agrees : ∀ button, Agrees (find button w.player.m_actionButtons)
    (w.rows (w.player.activeSpec,button))
  unused : ∀ spec button, w.player.specsCount ≤ spec → w.rows (spec,button)=none
  active : w.player.activeSpec < w.player.specsCount
  count : w.player.specsCount ≤ 2

/-- A specialization that is switched to has a row, and there are one or two of them. -/
def Proper (w : World) : Action → Prop
  | .activateSpec _ spec =>
    spec≠w.player.activeSpec →
      spec < w.player.specsCount ∧ ∃ button, w.rows (spec,button)≠none
  | .updateSpecCount _ count =>
    0 < count ∧ count ≤ 2 ∧
      (count ≤ w.player.activeSpec → ∃ button, w.rows (0,button)≠none)
  | _ => True

section Packing

variable {action : UInt32} (type : UInt8)

theorem toNat_pack (h : action < MAX_ACTION_BUTTON_ACTION_VALUE) :
    (action ||| type.toUInt32 <<< 24).toNat=type.toNat*2^24+action.toNat := by
  have haction : action.toNat < 2^24 := UInt32.lt_iff_toNat_lt.mp h
  have htype : type.toNat < 2^8 := type.toNat_lt
  rw [UInt32.toNat_or,UInt32.toNat_shiftLeft,UInt8.toNat_toUInt32]
  have hshift : type.toNat <<< ((24 : UInt32).toNat%32)%2^32=type.toNat <<< 24 := by
    refine Nat.mod_eq_of_lt ?_
    change type.toNat <<< 24 < 2^32
    rw [Nat.shiftLeft_eq]
    omega
  rw [hshift,Nat.lor_comm,← Nat.shiftLeft_add_eq_or_of_lt haction,Nat.shiftLeft_eq]

/-- An action below the limit is found again in the packed data. -/
theorem ACTION_BUTTON_ACTION_pack (h : action < MAX_ACTION_BUTTON_ACTION_VALUE) :
    ACTION_BUTTON_ACTION (action ||| type.toUInt32 <<< 24)=action := by
  have haction : action.toNat < 2^24 := UInt32.lt_iff_toNat_lt.mp h
  refine UInt32.toNat_inj.mp ?_
  rw [ACTION_BUTTON_ACTION,UInt32.toNat_and,toNat_pack type h]
  change (type.toNat*2^24+action.toNat) &&& (2^24-1)=action.toNat
  rw [Nat.and_two_pow_sub_one_eq_mod]
  omega

theorem ACTION_BUTTON_TYPE_pack (h : action < MAX_ACTION_BUTTON_ACTION_VALUE) :
    ACTION_BUTTON_TYPE (action ||| type.toUInt32 <<< 24)=type := by
  have haction : action.toNat < 2^24 := UInt32.lt_iff_toNat_lt.mp h
  have htype : type.toNat < 2^8 := type.toNat_lt
  refine UInt8.toNat_inj.mp ?_
  rw [ACTION_BUTTON_TYPE,UInt32.toNat_toUInt8,UInt32.toNat_shiftRight,UInt32.toNat_and,
    toNat_pack type h]
  change ((type.toNat*2^24+action.toNat) &&& ((2^8-1) <<< 24)) >>> 24%2^8=type.toNat
  rw [Nat.shiftRight_and_distrib,Nat.shiftLeft_shiftRight,Nat.and_two_pow_sub_one_eq_mod,
    Nat.shiftRight_eq_div_pow]
  omega

end Packing

theorem packedData_set (ab : ActionButton) (action : UInt32) (type : UInt8) :
    (ab.SetActionAndType action type).packedData=action ||| type.toUInt32 <<< 24 := by
  unfold ActionButton.SetActionAndType
  dsimp only
  split_ifs with h
  · rfl
  · rfl
  · rw [Bool.or_eq_true,decide_eq_true_eq,not_or,not_not] at h
    exact h.1.symm

/-- Setting a button keeps what its mark says of the row. -/
theorem ActionButton.Fits.set {ab : ActionButton} {row : Option Row} (h : ab.Fits row)
    (action : UInt32) (type : UInt8) : (ab.SetActionAndType action type).Fits row := by
  unfold ActionButton.SetActionAndType
  dsimp only
  split_ifs with hdata hnew
  · unfold ActionButton.Fits at h ⊢
    cases hstate : ab.uState with
    | ACTIONBUTTON_NEW => exact absurd hstate hnew
    | ACTIONBUTTON_UNCHANGED =>
      rw [hstate] at h
      exact h.symm ▸ Option.some_ne_none _
    | ACTIONBUTTON_CHANGED => rwa [hstate] at h
    | ACTIONBUTTON_DELETED => rwa [hstate] at h
  · rw [not_not] at hnew
    unfold ActionButton.Fits at h ⊢
    simpa only [hnew] using h
  · exact h

section Saving

variable {spec : ℕ} {button : Button} {l : ActionButtonList} {rows : Rows Key Row}

theorem find_tail {x : Button×ActionButton} (h : Sorted (x::l)) : find x.1 l=none := by
  by_contra hne
  obtain ⟨ab,hab⟩ := Option.ne_none_iff_exists'.mp hne
  exact lt_irrefl x.1 ((List.pairwise_cons.mp h).1 (x.1,ab) (mem_of_find hab))

/-- The statement of a button, if there is one, gives it the row it is to have. -/
theorem exec_saveActions_cons {ab : ActionButton} (h : ab.Fits (rows (spec,button))) :
    exec (Player.saveActions spec ((button,ab)::l)).1 rows=
      exec (Player.saveActions spec l).1 (Function.update rows (spec,button) ab.content) := by
  unfold ActionButton.Fits at h
  rw [Player.saveActions,ActionButton.content]
  cases hstate : ab.uState with
  | ACTIONBUTTON_UNCHANGED =>
    rw [hstate] at h
    rw [if_neg (by decide),← h,Function.update_eq_self]
  | ACTIONBUTTON_NEW =>
    rw [hstate] at h
    exact exec_insert h _ _
  | ACTIONBUTTON_CHANGED =>
    rw [hstate] at h
    obtain ⟨row,hrow⟩ := Option.ne_none_iff_exists'.mp h
    rw [if_neg (by decide)]
    simp only [exec,Statement.exec,hrow,Option.map_some,Option.bind_some]
  | ACTIONBUTTON_DELETED =>
    rw [if_pos rfl]
    simp only [exec,Statement.exec,Option.bind_some]
    refine congrArg _ (funext fun key => ?_)
    simp only [Function.update_apply,decide_eq_true_eq]

theorem exec_saveActions (hsorted : Sorted l)
    (hfits : ∀ x∈l,ActionButton.Fits x.2 (rows (spec,x.1))) :
    exec (Player.saveActions spec l).1 rows=
      some fun key =>
        if key.1=spec then ((find key.2 l).map ActionButton.content).getD (rows key)
        else rows key := by
  induction l generalizing rows with
  | nil =>
    refine congrArg some (funext fun key => ?_)
    rw [find_nil]
    exact (ite_self _).symm
  | cons x l ih =>
    obtain ⟨hx,hl⟩ := List.pairwise_cons.mp hsorted
    have hrest : ∀ y∈l,
        ActionButton.Fits y.2 (Function.update rows (spec,x.1) x.2.content (spec,y.1)) := by
      intro y hy
      have hne : (spec,y.1)≠(spec,x.1) := fun heq => (hx y hy).ne' (Prod.mk.inj heq).2
      rw [Function.update_of_ne hne]
      exact hfits y (List.mem_cons_of_mem x hy)
    rw [exec_saveActions_cons (hfits x List.mem_cons_self),ih hl hrest]
    refine congrArg some (funext fun key => ?_)
    by_cases hspec : key.1=spec
    · rw [if_pos hspec,if_pos hspec,find_cons]
      by_cases hbutton : x.1=key.2
      · have hkey : key=(spec,x.1) := Prod.ext hspec hbutton.symm
        rw [if_pos hbutton,← hbutton,find_tail hsorted,hkey,Function.update_self]
        rfl
      · have hne : key≠(spec,x.1) := fun heq => hbutton (congrArg Prod.snd heq).symm
        rw [if_neg hbutton,Function.update_of_ne hne]
    · have hne : key≠(spec,x.1) := fun heq => hspec (congrArg Prod.fst heq)
      rw [if_neg hspec,if_neg hspec,Function.update_of_ne hne]

/-- What a save makes of an entry of the map. -/
def ActionButton.saved (ab : ActionButton) : Option ActionButton :=
  ab.content.map fun _ => { ab with uState := ACTIONBUTTON_UNCHANGED }

/-- An entry that is left has the row it was to have. -/
theorem ActionButton.saved_cases (ab : ActionButton) :
    (ab.saved=none ∧ ab.content=none) ∨
      ∃ ab',ab.saved=some ab' ∧ ab'.content=ab.content ∧ ab'.Fits ab.content := by
  unfold ActionButton.saved ActionButton.content
  by_cases hdeleted : ab.uState=ACTIONBUTTON_DELETED
  · rw [if_pos hdeleted]
    exact Or.inl ⟨rfl,rfl⟩
  · rw [if_neg hdeleted]
    exact Or.inr ⟨_,rfl,rfl,rfl⟩

theorem saveActions_map (spec : ℕ) (l : ActionButtonList) :
    (Player.saveActions spec l).2=l.filterMap fun x => x.2.saved.map fun ab => (x.1,ab) := by
  induction l with
  | nil => rfl
  | cons x l ih =>
    obtain ⟨button,data,state⟩ := x
    rw [Player.saveActions]
    cases state with
    | ACTIONBUTTON_DELETED => exact ih
    | ACTIONBUTTON_UNCHANGED => exact congrArg _ ih
    | ACTIONBUTTON_NEW => exact congrArg _ ih
    | ACTIONBUTTON_CHANGED => exact congrArg _ ih

theorem sorted_saved (h : Sorted l) (spec : ℕ) : Sorted (Player.saveActions spec l).2 := by
  rw [saveActions_map]
  refine List.Pairwise.filterMap _ (fun x y hlt x' hx y' hy => ?_) h
  obtain ⟨_,-,rfl⟩ := Option.map_eq_some_iff.mp hx
  obtain ⟨_,-,rfl⟩ := Option.map_eq_some_iff.mp hy
  exact hlt

/-- A save leaves of each button what is left of its entry. -/
theorem find_saved (h : Sorted l) (spec : ℕ) (button : Button) :
    find button (Player.saveActions spec l).2=(find button l).bind ActionButton.saved := by
  rw [saveActions_map]
  induction l with
  | nil => rfl
  | cons x l ih =>
    have htail := ih (List.pairwise_cons.mp h).2
    have hfirst := find_tail h
    rw [List.filterMap_cons,find_cons]
    by_cases hbutton : x.1=button
    · rw [if_pos hbutton,Option.bind_some]
      cases x.2.saved with
      | none =>
        rw [← hbutton,hfirst] at htail
        exact hbutton ▸ htail
      | some ab => exact (find_cons _ _ _).trans (if_pos hbutton)
    · rw [if_neg hbutton,← htail]
      cases x.2.saved with
      | none => rfl
      | some ab => exact (find_cons _ _ _).trans (if_neg hbutton)

end Saving

section Loading

variable {e : Env} {p q : Player}

/-- What a row is loaded as: a button that is not valid is not shown. -/
def readable (e : Env) (row : Button×Row) : Option Row :=
  if e.IsActionButtonDataValid row.1 row.2.1 row.2.2 then some row.2 else none

theorem loadAction_button (e : Env) (p : Player) (row : Button×Row) :
    ∃ ab : ActionButton,ab.Fits (some row.2) ∧ ab.content=readable e row ∧
      (Player.loadAction e p row).m_actionButtons=write row.1 ab
        (((p.addActionButton e row.1 row.2.1 row.2.2).getD p).m_actionButtons) := by
  unfold Player.loadAction readable
  cases hadd : p.addActionButton e row.1 row.2.1 row.2.2 with
  | none =>
    unfold Player.addActionButton at hadd
    split_ifs at hadd with hvalid
    refine ⟨{ index row.1 p.m_actionButtons with uState := ACTIONBUTTON_DELETED },?_,?_,rfl⟩
    · exact Option.some_ne_none row.2
    · rw [if_neg hvalid]
      rfl
  | some q =>
    unfold Player.addActionButton at hadd
    split_ifs at hadd with hvalid
    have haction : row.2.1 < MAX_ACTION_BUTTON_ACTION_VALUE := by
      unfold Env.IsActionButtonDataValid at hvalid
      split_ifs at hvalid with hbutton haction <;> exact UInt32.not_le.mp haction
    have hrow : some row.2=some ((index row.1 q.m_actionButtons).GetAction,
        (index row.1 q.m_actionButtons).GetType) := by
      simp only [← Option.some.inj hadd,index,find_write,if_true,Option.getD_some,
        ActionButton.GetAction,ActionButton.GetType,packedData_set,
        ACTION_BUTTON_ACTION_pack _ haction,ACTION_BUTTON_TYPE_pack _ haction]
    refine ⟨{ index row.1 q.m_actionButtons with uState := ACTIONBUTTON_UNCHANGED },hrow,?_,rfl⟩
    rw [if_pos hvalid,hrow]
    rfl

/-- Adding a button writes into the map, if anything. -/
theorem addActionButton_buttons (h : p.addActionButton e button action type=some q) :
    q=
      { p with
        m_actionButtons :=
          write button ((index button p.m_actionButtons).SetActionAndType action type)
            p.m_actionButtons } := by
  unfold Player.addActionButton at h
  split_ifs at h
  exact (Option.some.inj h).symm

/-- The buttons that have been loaded fit a row that was read, and nothing else is there. -/
structure Loaded (e : Env) (p : Player) (result : List (Button×Row)) : Prop where
  sorted : Sorted p.m_actionButtons
  read : ∀ button ab,find button p.m_actionButtons=some ab →
    ∃ row,(button,row)∈result ∧ ab.Fits (some row) ∧ ab.content=readable e (button,row)
  all : ∀ x∈result,find x.1 p.m_actionButtons≠none

theorem Loaded.loadAction {result : List (Button×Row)} (h : Loaded e p result) (row : Button×Row) :
    Loaded e (p.loadAction e row) (result++[row]) := by
  obtain ⟨ab,hfits,hcontent,hbuttons⟩ := loadAction_button e p row
  have hadded : ∀ button,button≠row.1 →
      find button ((p.addActionButton e row.1 row.2.1 row.2.2).getD p).m_actionButtons=
        find button p.m_actionButtons := by
    intro button hne
    cases hadd : p.addActionButton e row.1 row.2.1 row.2.2 with
    | none => rfl
    | some q =>
      rw [addActionButton_buttons hadd,Option.getD_some,find_write,if_neg (Ne.symm hne)]
  have hsorted : Sorted ((p.addActionButton e row.1 row.2.1 row.2.2).getD p).m_actionButtons := by
    cases hadd : p.addActionButton e row.1 row.2.1 row.2.2 with
    | none => exact h.sorted
    | some q =>
      rw [addActionButton_buttons hadd]
      exact h.sorted.write _ _
  constructor
  · rw [hbuttons]
    exact hsorted.write _ _
  · intro button ab' hfind
    rw [hbuttons,find_write] at hfind
    split_ifs at hfind with hbutton
    · rw [← hbutton,← Option.some.inj hfind]
      exact ⟨row.2,List.mem_append_right _ List.mem_cons_self,hfits,hcontent⟩
    · rw [hadded button (Ne.symm hbutton)] at hfind
      obtain ⟨row',hmem,hrest⟩ := h.read button ab' hfind
      exact ⟨row',List.mem_append_left _ hmem,hrest⟩
  · intro x hx
    rw [hbuttons,find_write]
    split_ifs with hbutton
    · exact Option.some_ne_none _
    · rw [hadded x.1 (Ne.symm hbutton)]
      rcases List.mem_append.mp hx with hx | hx
      · exact h.all x hx
      · exact absurd (congrArg Prod.fst (List.mem_singleton.mp hx)).symm hbutton

theorem loaded_LoadActions (p : Player) (e : Env) (result : List (Button×Row)) :
    Loaded e (p._LoadActions e result) result := by
  have hrun : ∀ (rest done : List (Button×Row)) (q : Player),Loaded e q done →
      Loaded e (rest.foldl (Player.loadAction e) q) (done++rest) := by
    intro rest
    induction rest with
    | nil =>
      intro done q hq
      rwa [List.append_nil]
    | cons row rest ih =>
      intro done q hq
      have htail := ih (done++[row]) _ (hq.loadAction row)
      rwa [List.append_assoc,List.singleton_append] at htail
  refine hrun result [] _ ⟨List.Pairwise.nil,fun button ab h => ?_,fun x hx => ?_⟩
  · cases h
  · cases hx

theorem mem_selectSpec {rows : Rows Key Row} {spec : ℕ} {button : Button} {row : Row} :
    (button,row)∈selectSpec rows spec ↔ rows (spec,button)=some row := by
  unfold selectSpec
  rw [List.mem_filterMap]
  constructor
  · rintro ⟨b,-,hrow⟩
    obtain ⟨row',hrow',heq⟩ := Option.map_eq_some_iff.mp hrow
    obtain ⟨rfl,rfl⟩ := Prod.mk.inj heq
    exact hrow'
  · intro hrow
    exact ⟨button,List.mem_finRange button,by rw [hrow,Option.map_some]⟩

theorem Loaded.agrees {rows : Rows Key Row} {spec : ℕ} (h : Loaded e p (selectSpec rows spec))
    (button : Button) :
    Agrees (find button p.m_actionButtons) (rows (spec,button)) ∧
      p.shown button=(rows (spec,button)).bind fun row => readable e (button,row) := by
  unfold Player.shown
  cases hfind : find button p.m_actionButtons with
  | none =>
    cases hrow : rows (spec,button) with
    | none => exact ⟨rfl,rfl⟩
    | some row =>
      exact absurd hfind (h.all (button,row) (mem_selectSpec.mpr hrow))
  | some ab =>
    obtain ⟨row,hmem,hfits,hcontent⟩ := h.read button ab hfind
    rw [mem_selectSpec.mp hmem]
    exact ⟨hfits,hcontent⟩

theorem _LoadActions_specs (p : Player) (e : Env) (result : List (Button×Row)) :
    (p._LoadActions e result).activeSpec=p.activeSpec ∧
      (p._LoadActions e result).specsCount=p.specsCount := by
  have hstep : ∀ (q : Player) (row : Button×Row),(q.loadAction e row).activeSpec=q.activeSpec ∧
      (q.loadAction e row).specsCount=q.specsCount := by
    intro q row
    unfold Player.loadAction
    cases hadd : q.addActionButton e row.1 row.2.1 row.2.2 with
    | none => exact ⟨rfl,rfl⟩
    | some r =>
      rw [addActionButton_buttons hadd]
      exact ⟨rfl,rfl⟩
  refine List.foldlRecOn (motive := fun q : Player => q.activeSpec=p.activeSpec ∧
    q.specsCount=p.specsCount) result _ ⟨rfl,rfl⟩ fun q hq row _ => ?_
  exact ⟨(hstep q row).1.trans hq.1,(hstep q row).2.trans hq.2⟩

end Loading

section Requests

variable {w : World} {e : Env}

/-- The rows after a save. -/
def World.written (w : World) : Rows Key Row := fun key =>
  if key.1=w.player.activeSpec then w.player.shown key.2 else w.rows key

theorem written_active (w : World) (button : Button) :
    w.written (w.player.activeSpec,button)=w.player.shown button := if_pos rfl

theorem Tracked.exec_save (h : Tracked w) : exec w.player.saveStatements w.rows=some w.written := by
  have hfits : ∀ x∈w.player.m_actionButtons,
      ActionButton.Fits x.2 (w.rows (w.player.activeSpec,x.1)) := by
    intro x hx
    have hagrees := h.agrees x.1
    rwa [h.sorted.find_of_mem hx] at hagrees
  rw [Player.saveStatements,exec_saveActions h.sorted hfits]
  refine congrArg some (funext fun key => ?_)
  unfold World.written Player.shown
  split_ifs with hspec
  · have hagrees := h.agrees key.2
    cases hfind : find key.2 w.player.m_actionButtons with
    | none =>
      rw [hfind,← hspec] at hagrees
      exact hagrees
    | some ab => rfl
  · rfl

/-- After a save the client is shown the same, and the map agrees with the rows of it. -/
theorem Tracked.saved (h : Tracked w) (button : Button) :
    w.player._SaveActions.shown button=w.player.shown button ∧
      Agrees (find button w.player._SaveActions.m_actionButtons) (w.player.shown button) := by
  unfold Player.shown Player._SaveActions
  rw [find_saved h.sorted]
  cases find button w.player.m_actionButtons with
  | none => exact ⟨rfl,rfl⟩
  | some ab =>
    rw [Option.bind_some,Option.bind_some]
    rcases ab.saved_cases with ⟨hsaved,hcontent⟩ | ⟨ab',hsaved,hcontent,hfits⟩
    · rw [hsaved,hcontent]
      exact ⟨rfl,rfl⟩
    · rw [hsaved]
      exact ⟨hcontent,hfits⟩

theorem Tracked.unused_written (h : Tracked w) {spec : ℕ} (hspec : w.player.specsCount ≤ spec)
    (button : Button) : w.written (spec,button)=none := by
  rw [World.written,if_neg (h.active.trans_le hspec).ne']
  exact h.unused spec button hspec

theorem save_eq (h : Tracked w) :
    (w.save fun _ => [])=⟨w.player._SaveActions,w.written⟩ := by
  rw [World.save,List.append_nil,commit_of_exec h.exec_save]

theorem Tracked.tracked_saved (h : Tracked w) {rows : Rows Key Row} {count : ℕ}
    (hsame : ∀ button,rows (w.player.activeSpec,button)=w.written (w.player.activeSpec,button))
    (hunused : ∀ spec button,count ≤ spec → rows (spec,button)=none)
    (hactive : w.player.activeSpec < count) (hcount : count ≤ 2) :
    Tracked ⟨{ w.player._SaveActions with specsCount := count },rows⟩ := by
  refine ⟨sorted_saved h.sorted _,fun button => ?_,hunused,hactive,hcount⟩
  have hagrees := (h.saved button).2
  rwa [← written_active,← hsame] at hagrees

theorem Tracked.save (h : Tracked w) : Tracked (w.save fun _ => []) := by
  rw [save_eq h]
  exact h.tracked_saved (fun _ => rfl) (fun _ button hspec => h.unused_written hspec button)
    h.active h.count

theorem tracked_load {p : Player} {rows : Rows Key Row} (e : Env)
    (hunused : ∀ spec button,p.specsCount ≤ spec → rows (spec,button)=none)
    (hactive : p.activeSpec < p.specsCount) (hcount : p.specsCount ≤ 2) :
    Tracked ⟨p._LoadActions e (selectSpec rows p.activeSpec),rows⟩ := by
  have hloaded := loaded_LoadActions p e (selectSpec rows p.activeSpec)
  obtain ⟨hspec,hspecs⟩ := _LoadActions_specs p e (selectSpec rows p.activeSpec)
  refine ⟨hloaded.sorted,fun button => ?_,?_,?_,?_⟩
  · rw [hspec]
    exact (hloaded.agrees button).1
  · rw [hspecs]
    exact hunused
  · rw [hspec,hspecs]
    exact hactive
  · rw [hspecs]
    exact hcount

theorem Tracked.relog (h : Tracked w) (e : Env) : Tracked (w.relog e) := by
  have hsaved := h.save
  exact tracked_load e hsaved.unused hsaved.active hsaved.count

/-- After a login the client is shown what it was shown before, but for what is not valid. -/
theorem Tracked.shown_relog (h : Tracked w) (e : Env) (button : Button) :
    (w.relog e).player.shown button=
      (w.player.shown button).bind fun row => readable e (button,row) := by
  have hsaved := h.save
  have hloaded := loaded_LoadActions (w.save fun _ => []).player e
    (selectSpec (w.save fun _ => []).rows (w.save fun _ => []).player.activeSpec)
  rw [World.relog,(hloaded.agrees button).2,← written_active w,save_eq h]
  rfl

theorem Tracked.write (h : Tracked w) {button : Button} {ab : ActionButton}
    (hfits : ab.Fits (w.rows (w.player.activeSpec,button))) :
    Tracked { w with
      player := { w.player with
        m_actionButtons := OrderedMap.write button ab w.player.m_actionButtons } } := by
  refine ⟨h.sorted.write _ _,fun b => ?_,h.unused,h.active,h.count⟩
  rw [find_write]
  split_ifs with hb
  · exact hb ▸ hfits
  · exact h.agrees b

/-- An entry goes that has no row. -/
theorem Tracked.forget (h : Tracked w) {button : Button}
    (hnone : w.rows (w.player.activeSpec,button)=none) :
    Tracked { w with
      player := { w.player with
        m_actionButtons := KeyedList.remove Prod.fst button w.player.m_actionButtons } } := by
  refine ⟨h.sorted.sublist List.filter_sublist,fun b => ?_,h.unused,h.active,h.count⟩
  rw [find_remove]
  split_ifs with hb
  · exact hb ▸ hnone
  · exact h.agrees b

theorem Tracked.remove (h : Tracked w) (button : Button) :
    Tracked { w with player := w.player.removeActionButton button } := by
  unfold Player.removeActionButton
  cases hfind : find button w.player.m_actionButtons with
  | none => exact h
  | some ab =>
    have hagrees := h.agrees button
    rw [hfind] at hagrees
    unfold Agrees ActionButton.Fits at hagrees
    dsimp only at hagrees ⊢
    cases hstate : ab.uState with
    | ACTIONBUTTON_DELETED => exact h
    | ACTIONBUTTON_NEW =>
      rw [hstate] at hagrees
      exact h.forget hagrees
    | ACTIONBUTTON_UNCHANGED =>
      rw [hstate] at hagrees
      exact h.write (hagrees ▸ Option.some_ne_none _)
    | ACTIONBUTTON_CHANGED =>
      rw [hstate] at hagrees
      exact h.write hagrees

theorem Tracked.set (h : Tracked w) (e : Env) (button : Button) (packetData : UInt32) :
    Tracked
      { w with player := w.player.handleSetActionButtonOpcode e button packetData } := by
  unfold Player.handleSetActionButtonOpcode
  split_ifs with hdata
  · exact h.remove button
  cases hadd : w.player.addActionButton e button (ACTION_BUTTON_ACTION packetData)
      (ACTION_BUTTON_TYPE packetData) with
  | none => exact h
  | some q =>
    rw [Option.getD_some,addActionButton_buttons hadd]
    refine h.write (ActionButton.Fits.set ?_ _ _)
    have hagrees := h.agrees button
    unfold index
    cases hfind : find button w.player.m_actionButtons with
    | none =>
      rw [hfind] at hagrees
      exact hagrees
    | some ab =>
      rw [hfind] at hagrees
      exact hagrees

/-- A switch to a specialization with a row saves the old one and loads the new one. -/
theorem activateSpec_eq (h : Tracked w) {spec : ℕ} (hne : w.player.activeSpec≠spec)
    (hspec : spec < w.player.specsCount) (hrow : ∃ button,w.rows (spec,button)≠none) :
    w.activateSpec e spec=
      ⟨{ w.player._SaveActions with activeSpec := spec }._LoadActions e
        (selectSpec w.written spec),w.written⟩ := by
  obtain ⟨button,hrow⟩ := hrow
  obtain ⟨row,hrow⟩ := Option.ne_none_iff_exists'.mp hrow
  have hwritten : w.written (spec,button)=some row := by
    rw [World.written,if_neg (Ne.symm hne)]
    exact hrow
  have hmem := mem_selectSpec.mpr hwritten
  rw [World.activateSpec,if_neg hne,if_neg hspec.not_gt,save_eq h]
  dsimp only
  split
  · rename_i hnil
    rw [hnil] at hmem
    cases hmem
  · rfl

theorem Tracked.activateSpec (h : Tracked w) (e : Env) {spec : ℕ}
    (hproper : Proper w (.activateSpec e spec)) : Tracked (w.activateSpec e spec) := by
  by_cases hne : spec=w.player.activeSpec
  · rw [World.activateSpec,if_pos hne.symm]
    exact h
  obtain ⟨hspec,hrow⟩ := hproper hne
  rw [activateSpec_eq h (Ne.symm hne) hspec hrow]
  exact tracked_load (p := { w.player._SaveActions with activeSpec := spec }) e
    (fun _ button hunused => h.unused_written hunused button) hspec h.count

/-- What the second specialization starts with. -/
def Player.copies (p : Player) : List (Key×Row) :=
  p.m_actionButtons.map fun x => ((1,x.1),x.2.GetAction,x.2.GetType)

theorem Tracked.rows_grow (h : Tracked w) (hcount : w.player.specsCount=1) :
    (w.save fun p => p.m_actionButtons.map
      fun x => .insert (1,x.1) (x.2.GetAction,x.2.GetType)).rows=
      fun key => ((w.player._SaveActions.copies.find? fun x => x.1=key).map Prod.snd).or
        (w.written key) := by
  have hsorted : Sorted w.player._SaveActions.m_actionButtons := sorted_saved h.sorted _
  have hkeys : (w.player._SaveActions.copies.map Prod.fst).Nodup := by
    rw [Player.copies,List.map_map,List.Nodup,List.pairwise_map]
    exact hsorted.imp fun {x y} hlt heq => hlt.ne (congrArg Prod.snd heq)
  have hnew : ∀ x∈w.player._SaveActions.copies,w.written x.1=none := by
    intro x hx
    obtain ⟨y,hy,rfl⟩ := List.mem_map.mp hx
    exact h.unused_written hcount.le y.1
  have hexec := exec_inserts hkeys hnew
  rw [Player.copies,List.map_map] at hexec
  refine commit_of_exec ?_
  rw [exec_append,h.exec_save,Option.bind_some]
  exact hexec

/-- A second specialization starts with the buttons of the first one. -/
theorem Tracked.grow (h : Tracked w) (hcount : w.player.specsCount=1) :
    Tracked
      ⟨{ w.player._SaveActions with specsCount := 2 },
        (w.save fun p => p.m_actionButtons.map
          fun x => .insert (1,x.1) (x.2.GetAction,x.2.GetType)).rows⟩ := by
  have hactive := h.active
  rw [h.rows_grow hcount]
  have hother : ∀ spec (button : Button),spec≠1 →
      w.player._SaveActions.copies.find? (fun x => x.1=(spec,button))=none := by
    intro spec button hspec
    refine List.find?_eq_none.mpr fun x hx heq => ?_
    obtain ⟨y,-,rfl⟩ := List.mem_map.mp hx
    exact hspec (congrArg Prod.fst (of_decide_eq_true heq)).symm
  refine h.tracked_saved (fun button => ?_) (fun spec button hspec => ?_) (by omega) le_rfl
  · rw [hother _ button (by omega)]
    rfl
  · rw [hother _ button (by omega)]
    exact h.unused_written (by omega) button

theorem Tracked.shrink (h : Tracked w) (hactive : w.player.activeSpec=0) :
    Tracked
      ⟨{ w.player._SaveActions with specsCount := 1 },
        (w.save fun p => [.delete fun key => key.1≠p.activeSpec]).rows⟩ := by
  have hrows : (w.save fun p => [.delete fun key => key.1≠p.activeSpec]).rows=
      fun key => if key.1≠w.player.activeSpec then none else w.written key := by
    refine commit_of_exec ?_
    rw [exec_append,h.exec_save,Option.bind_some]
    simp only [exec,Statement.exec,Option.bind_some,decide_eq_true_eq]
    rfl
  rw [hrows]
  refine h.tracked_saved (fun button => if_neg (not_not.mpr rfl))
    (fun spec button hspec => if_pos ?_) (by omega) one_le_two
  dsimp only
  omega

theorem Tracked.updateSpecCount (h : Tracked w) (e : Env) {count : ℕ}
    (hproper : Proper w (.updateSpecCount e count)) : Tracked (w.updateSpecCount e count) := by
  obtain ⟨hpos,hle,hrow⟩ := hproper
  have hactive := h.active
  have hspecs := h.count
  unfold World.updateSpecCount
  dsimp only
  by_cases hsame : w.player.specsCount=count
  · rw [if_pos hsame]
    exact h
  rw [if_neg hsame]
  by_cases hmore : count > w.player.specsCount
  · have htwo : count=2 := by omega
    have hone : w.player.specsCount=1 := by omega
    have hunder : ¬w.player.activeSpec ≥ count := by omega
    rw [if_pos hmore,if_neg hunder,htwo]
    exact h.grow hone
  have hone : count=1 := by omega
  rw [if_neg hmore,hone]
  by_cases hover : 1 ≤ w.player.activeSpec
  · have hswitch : Tracked (w.activateSpec e 0) :=
      h.activateSpec e fun _ => ⟨by omega,hrow (hone ▸ hover)⟩
    rw [if_pos hover]
    refine hswitch.shrink ?_
    rw [activateSpec_eq h (by omega) (by omega) (hrow (hone ▸ hover))]
    exact (_LoadActions_specs _ e _).1
  · rw [if_neg hover]
    exact h.shrink (by omega)

theorem Tracked.step (h : Tracked w) {a : Action} (hproper : Proper w a) :
    Tracked (w.step a) := by
  cases a with
  | set e button packetData => exact h.set e button packetData
  | save => exact h.save
  | relog e => exact h.relog e
  | activateSpec e spec => exact h.activateSpec e hproper
  | updateSpecCount e count => exact h.updateSpecCount e hproper

end Requests

/-- From a login on, through any packets, saves, switches and changes of the number of
specializations: a save is carried out and makes the rows of the active specialization what the
client is shown, with the others left alone, and the next login shows the same again. -/
theorem action_buttons_written_back {p : Player} {rows : Rows Key Row} (e : Env)
    (hunused : ∀ spec button,p.specsCount ≤ spec → rows (spec,button)=none)
    (hactive : p.activeSpec < p.specsCount) (hcount : p.specsCount ≤ 2) {as : List Action}
    (hm : Meets World.step Proper
      ⟨p._LoadActions e (selectSpec rows p.activeSpec),rows⟩ as) :
    let w := run World.step ⟨p._LoadActions e (selectSpec rows p.activeSpec),rows⟩ as
    exec w.player.saveStatements w.rows=some w.written ∧
      (∀ button,w.player._SaveActions.shown button=w.player.shown button) ∧
      ∀ e' button,(w.relog e').player.shown button=
        (w.player.shown button).bind fun row => readable e' (button,row) := by
  intro w
  have htracked : Tracked w := run_invariant (fun _ _ h hproper => h.step hproper)
    (tracked_load e hunused hactive hcount) hm
  exact ⟨htracked.exec_save,fun button => (htracked.saved button).1,htracked.shown_relog⟩

/-- A macro on the first button of each specialization. -/
def macroRows : Rows Key Row := fun key =>
  if key=(0,0) ∨ key=(1,0) then some (7,ACTION_BUTTON_MACRO) else none

def macroLogin : World :=
  ⟨({ m_actionButtons := [], activeSpec := 0, specsCount := 2 } : Player)._LoadActions
    ⟨fun _ => true,fun _ => true,fun _ => true⟩ (selectSpec macroRows 0),macroRows⟩

/-- A button is placed and another one removed, the specialization changes, and the first one
is given up. -/
def macroActions : List Action :=
  let e : Env := ⟨fun _ => true,fun _ => true,fun _ => true⟩
  [.set e 3 0x40000009,.set e 0 0,.set e 4 0x40000009,.activateSpec e 1,.set e 0 0x40000008,.save]

theorem action_buttons_written_back_macros :
    let w := run World.step macroLogin macroActions
    exec w.player.saveStatements w.rows=some w.written ∧ w.written (1,0)=some (8,ACTION_BUTTON_MACRO) ∧
      w.written (0,0)=none ∧ w.written (0,3)=some (9,ACTION_BUTTON_MACRO) := by
  refine ⟨(@action_buttons_written_back ⟨[],0,2⟩ macroRows
    ⟨fun _ => true,fun _ => true,fun _ => true⟩ ?_ (by decide) (by decide) macroActions
    ⟨trivial,trivial,trivial,fun _ => ⟨by decide,0,by decide⟩,trivial,trivial,trivial⟩).1,?_⟩
  · intro spec button hspec
    have hspec' : 2 ≤ spec := hspec
    refine if_neg fun hkey => ?_
    rcases hkey with hkey | hkey <;> have hfirst := (Prod.mk.inj hkey).1 <;> omega
  · decide

end Projectnelth.ActionButtonModel
