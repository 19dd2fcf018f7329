import Projectnelth.ChatCommandModel

/-!
# What a chat command calls

Each level of the tree gives its word to the first command that the word abbreviates, that is of use
to the session and that does not stand back behind a name that is as the word was typed. At most one
handler is called, one the session may call.
-/

namespace Projectnelth.ChatCommandDispatch

open ChatCommandModel

variable {η : Type}

/-- Two names that differ in the case of letters only. -/
def SameName (name cmd : List Char) : Prop := name.map Char.toLower=cmd.map Char.toLower

/-- A word that is short for a name. -/
def MerelyAbbreviates (name cmd : List Char) : Prop :=
  name≠[] ∧ hasStringAbbr name cmd ∧ ¬SameName name cmd

/-- A command that has child commands or a handler that the session may call. -/
def Usable (security : UInt32) (c : ChatCommand η) : Prop :=
  c.ChildCommands≠[] ∨ c.Handler≠none ∧ isAvailable security c

/-- A level that has the word as a name does not give it to a command that it is short for. -/
def Obeys (d : Dispatch η) : Prop :=
  (∃ c∈d.level,SameName c.Name d.cmd) → ¬MerelyAbbreviates d.command.Name d.cmd

/-- A level that has the word as a name has it as it was typed, or a command of use that the word is
not short for goes before those that it is short for. -/
def Clear (security : UInt32) (level : List (ChatCommand η)) (cmd : List Char) : Prop :=
  (∃ c∈level,SameName c.Name cmd) → (∃ c∈level,c.Name=cmd) ∨
    ∀ before c after,level=before++c::after → Usable security c →
      MerelyAbbreviates c.Name cmd →
      ∃ b∈before,Usable security b ∧ hasStringAbbr b.Name cmd ∧ ¬MerelyAbbreviates b.Name cmd

/-- The commands without child commands that a text abbreviates, word after word. -/
inductive Reachable : List (ChatCommand η) → List Char → ChatCommand η → Prop
  /-- A command of the table. -/
  | here {table : List (ChatCommand η)} {text : List Char} {c : ChatCommand η} (mem : c∈table)
    (abbr : hasStringAbbr c.Name (word text)) (leaf : c.ChildCommands=[]) :
    Reachable table text c
  /-- A command below one of the table. -/
  | child {table : List (ChatCommand η)} {text : List Char} {c leaf : ChatCommand η}
    (mem : c∈table) (abbr : hasStringAbbr c.Name (word text))
    (rest : Reachable c.ChildCommands (behind text) leaf) : Reachable table text leaf

/-- The levels of a tree of commands. -/
inductive LevelOf : List (ChatCommand η) → List (ChatCommand η) → Prop
  /-- The table itself. -/
  | self (table : List (ChatCommand η)) : LevelOf table table
  /-- A level below a command. -/
  | child {table level : List (ChatCommand η)} {c : ChatCommand η} (mem : c∈table)
    (rest : LevelOf c.ChildCommands level) : LevelOf table level

/-! ## Abbreviations -/

theorem abbreviates_iff (name part : List Char) :
    hasStringAbbr.abbreviates name part ↔ part.map Char.toLower<+:name.map Char.toLower := by
  induction name generalizing part with
  | nil =>
      cases part with
      | nil => simp [hasStringAbbr.abbreviates]
      | cons p part => simp [hasStringAbbr.abbreviates]
  | cons n name ih =>
      cases part with
      | nil => simp [hasStringAbbr.abbreviates]
      | cons p part =>
          rw [hasStringAbbr.abbreviates,List.map_cons,List.map_cons,List.cons_prefix_cons,← ih]
          by_cases h : n.toLower=p.toLower
          · simp [h]
          · simp only [ne_eq,h,not_false_eq_true,if_true,Bool.false_eq_true,false_iff,
              not_and_or]
            exact Or.inl fun heq => h heq.symm

theorem hasStringAbbr_iff (name part : List Char) :
    hasStringAbbr name part ↔
      name=[] ∨ part≠[] ∧ part.map Char.toLower<+:name.map Char.toLower := by
  cases name with
  | nil => simp [hasStringAbbr]
  | cons n name =>
      cases part with
      | nil => simp [hasStringAbbr]
      | cons p part =>
          have hloop : hasStringAbbr (n::name) (p::part)=
              hasStringAbbr.abbreviates (n::name) (p::part) := rfl
          rw [hloop,abbreviates_iff]
          simp

/-- A word is an abbreviation of itself. -/
theorem hasStringAbbr_self (cmd : List Char) : hasStringAbbr cmd cmd := by
  rw [hasStringAbbr_iff]
  by_cases h : cmd=[]
  · exact Or.inl h
  · exact Or.inr ⟨h,List.prefix_refl _⟩

/-- A word is short for the longer ones of the names that it abbreviates. -/
theorem merelyAbbreviates_iff {name cmd : List Char} (h : hasStringAbbr name cmd) :
    MerelyAbbreviates name cmd ↔ cmd.length < name.length := by
  constructor
  · rintro ⟨hname,_,hsame⟩
    rw [hasStringAbbr_iff] at h
    obtain ⟨_,hstart⟩ := h.resolve_left hname
    have hle := hstart.length_le
    rw [List.length_map,List.length_map] at hle
    rcases Nat.lt_or_eq_of_le hle with hlt | heq
    · exact hlt
    · have hequal := hstart.eq_of_length (by rw [List.length_map,List.length_map,heq])
      exact absurd hequal.symm hsame
  · intro hlt
    refine ⟨?_,h,?_⟩
    · intro hname
      rw [hname,List.length_nil] at hlt
      omega
    · intro hsame
      have hlength := congrArg List.length hsame
      rw [List.length_map,List.length_map] at hlength
      omega

/-- A longer name stands back where the word is a name of the table. -/
theorem exactMatch_iff (table : List (ChatCommand η)) (name cmd : List Char) :
    exactMatch (names table) name cmd ↔ cmd.length < name.length ∧ ∃ c∈table,c.Name=cmd := by
  simp only [exactMatch,names,Bool.and_eq_true,decide_eq_true_eq,List.any_eq_true,List.mem_map]
  constructor
  · rintro ⟨hlt,other,⟨c,hc,hname⟩,_,heq⟩
    exact ⟨hlt,c,hc,hname.trans heq⟩
  · rintro ⟨hlt,c,hc,hname⟩
    exact ⟨hlt,cmd,⟨c,hc,hname⟩,hasStringAbbr_self cmd,rfl⟩

/-! ## One level -/

/-- The commands that a level may give a word to. -/
def Takes (security : UInt32) (table : List (ChatCommand η)) (cmd : List Char)
    (c : ChatCommand η) : Prop :=
  hasStringAbbr c.Name cmd ∧ ¬exactMatch (names table) c.Name cmd ∧ Usable security c

/-- What a level does with a command that it takes: its child commands go on, or its handler is
called. -/
inductive Taken (security : UInt32) (run : η → List Char → Bool×Bool)
    (table : List (ChatCommand η)) (text : List Char) (c : ChatCommand η) :
    Execution η → Prop
  /-- The child commands go on. -/
  | children {e : Execution η} (some_child : c.ChildCommands≠[])
    (dispatches : e.dispatches=⟨table,word text,c⟩::
      (ExecuteCommandInTable security run c.ChildCommands (behind text)).dispatches)
    (calls : e.calls=
      (ExecuteCommandInTable security run c.ChildCommands (behind text)).calls) :
    Taken security run table text c e
  /-- The handler is called. -/
  | handler {e : Execution η} {function : η} (leaf : c.ChildCommands=[])
    (available : isAvailable security c) (found : c.Handler=some function)
    (dispatches : e.dispatches=[⟨table,word text,c⟩])
    (calls : e.calls=[⟨c,function,if c.Name≠[] then behind text else text⟩]) :
    Taken security run table text c e

variable {security : UInt32} {run : η → List Char → Bool×Bool}

theorem executeChildren_eq (c : ChatCommand η) (text : List Char) :
    executeChildren security run c text=
      ExecuteCommandInTable security run c.ChildCommands text := by
  cases c
  rw [executeChildren]
  rfl

/-- A level passes a command that it may not take. -/
theorem executeFrom_skip {table rest : List (ChatCommand η)} {text : List Char}
    {c : ChatCommand η} (h : ¬Takes security table (word text) c) :
    executeFrom security run (c::rest) table text=executeFrom security run rest table text := by
  rw [executeFrom]
  by_cases habbr : hasStringAbbr c.Name (word text)
  · by_cases hexact : exactMatch (names table) c.Name (word text)
    · simp only [habbr,hexact,Bool.not_true,Bool.false_eq_true,if_false,if_true]
    have hunusable : ¬Usable security c := fun husable => h ⟨habbr,hexact,husable⟩
    have hchildren : c.ChildCommands=[] := by
      by_contra hsome
      exact hunusable (Or.inl hsome)
    simp only [habbr,hexact,hchildren,Bool.not_true,Bool.false_eq_true,if_false,
      List.isEmpty_nil]
    cases hhandler : c.Handler with
    | none => rfl
    | some function =>
        have havailable : isAvailable security c=false := by
          by_contra hsome
          rw [Bool.not_eq_false] at hsome
          apply hunusable
          right
          rw [hhandler]
          exact ⟨Option.some_ne_none function,hsome⟩
        simp only [havailable,Bool.not_false,if_true]
  · simp only [habbr,Bool.not_false,if_true]

theorem executeFrom_take {table rest : List (ChatCommand η)} {text : List Char}
    {c : ChatCommand η} (h : Takes security table (word text) c) :
    Taken security run table text c (executeFrom security run (c::rest) table text) := by
  obtain ⟨habbr,hexact,husable⟩ := h
  rw [executeFrom]
  by_cases hchildren : c.ChildCommands=[]
  · obtain ⟨hhandler,havailable⟩ := husable.resolve_left fun hsome => hsome hchildren
    cases hfound : c.Handler with
    | none => exact absurd hfound hhandler
    | some function =>
        simp only [habbr,hexact,hchildren,havailable,Bool.not_true,Bool.false_eq_true,if_false,
          List.isEmpty_nil]
        exact Taken.handler hchildren havailable hfound rfl rfl
  · have hsome : c.ChildCommands.isEmpty=false := by
      rw [List.isEmpty_eq_false_iff]
      exact hchildren
    simp only [habbr,hexact,hsome,Bool.not_true,Bool.false_eq_true,if_false,Bool.not_false,
      if_true,executeChildren_eq]
    exact Taken.children hchildren rfl rfl

/-- A level takes the first command that it may, or none. -/
theorem executeFrom_cases (table rest : List (ChatCommand η)) (text : List Char) :
    executeFrom security run rest table text=⟨[],[],[],false⟩ ∨
      ∃ before c after,rest=before++c::after ∧
        (∀ b∈before,¬Takes security table (word text) b) ∧
        Takes security table (word text) c ∧
        Taken security run table text c (executeFrom security run rest table text) := by
  induction rest with
  | nil => exact Or.inl rfl
  | cons c rest ih =>
      by_cases htakes : Takes security table (word text) c
      · refine Or.inr ⟨[],c,rest,rfl,?_,htakes,executeFrom_take htakes⟩
        intro b hb
        cases hb
      · rw [executeFrom_skip htakes]
        rcases ih with hnone | ⟨before,d,after,hrest,hbefore,hd,htaken⟩
        · exact Or.inl hnone
        refine Or.inr ⟨c::before,d,after,by rw [hrest]; rfl,?_,hd,htaken⟩
        intro b hb
        rcases List.mem_cons.mp hb with hhead | htail
        · rw [hhead]
          exact htakes
        · exact hbefore b htail

/-- A level that the word was given to took the first command that it may. -/
def Chosen (security : UInt32) (d : Dispatch η) : Prop :=
  ∃ before after,d.level=before++d.command::after ∧
    (∀ b∈before,¬Takes security d.level d.cmd b) ∧ Takes security d.level d.cmd d.command

/-- A command that was taken is one that the word is short for only where the level is not clear. -/
theorem obeys_line_iff {d : Dispatch η} (h : Chosen security d) :
    Obeys d ↔ Clear security d.level d.cmd := by
  obtain ⟨before,after,hlevel,hbefore,habbr,hexact,husable⟩ := h
  rw [exactMatch_iff,← merelyAbbreviates_iff habbr] at hexact
  constructor
  · intro hobeys hsame
    have hlonger := hobeys hsame
    by_cases hname : ∃ c∈d.level,c.Name=d.cmd
    · exact Or.inl hname
    right
    intro before' c after' hsplit hc hshort
    have htakes : Takes security d.level d.cmd c := by
      refine ⟨hshort.2.1,?_,hc⟩
      rw [exactMatch_iff]
      exact fun hmatch => hname hmatch.2
    -- the command that was taken stands before all others that may be taken
    have hmem : d.command∈before' := by
      rw [hlevel,List.append_eq_append_iff] at hsplit
      rcases hsplit with ⟨between,hbetween,htail⟩ | ⟨between,hbetween,htail⟩
      · cases between with
        | nil =>
            rw [List.nil_append] at htail
            injection htail with hhead
            rw [hhead] at hlonger
            exact absurd hshort hlonger
        | cons b between =>
            injection htail with hhead
            rw [hbetween,hhead]
            exact List.mem_append_right _ List.mem_cons_self
      · cases between with
        | nil =>
            rw [List.nil_append] at htail
            injection htail with hhead
            rw [← hhead] at hlonger
            exact absurd hshort hlonger
        | cons b between =>
            injection htail with hhead
            rw [hhead] at htakes
            apply absurd htakes
            apply hbefore
            rw [hbetween]
            exact List.mem_append_right _ List.mem_cons_self
    exact ⟨d.command,hmem,husable,habbr,hlonger⟩
  · intro hclear hsame hshort
    rcases hclear hsame with hname | hfirst
    · exact hexact ⟨hshort,hname⟩
    obtain ⟨b,hb,husableb,habbrb,hnot⟩ := hfirst before d.command after hlevel husable hshort
    apply hbefore b hb
    refine ⟨habbrb,?_,husableb⟩
    rw [exactMatch_iff,← merelyAbbreviates_iff habbrb]
    exact fun hmatch => hnot hmatch.1

/-! ## The whole tree -/

/-- What holds of a table where it holds of the tables below its commands holds of every table. -/
theorem table_induction {P : List (ChatCommand η) → Prop}
    (step : ∀ table,(∀ c∈table,P c.ChildCommands) → P table) (table : List (ChatCommand η)) :
    P table := by
  apply step
  intro c hc
  exact table_induction step c.ChildCommands
termination_by sizeOf table
decreasing_by
  have hmem := List.sizeOf_lt_of_mem hc
  have hchild : sizeOf c.ChildCommands < sizeOf c := by
    cases c
    simp only [ChatCommand.ChildCommands,ChatCommand.mk.sizeOf_spec]
    omega
  omega

/-- What the execution of a text in a tree did. -/
structure Sound (security : UInt32) (table : List (ChatCommand η)) (text : List Char)
    (e : Execution η) : Prop where
  /-- At most one handler was called. -/
  once : e.calls.length ≤ 1
  /-- The session may call it. -/
  allowed : ∀ call∈e.calls,isAvailable security call.command
  handler : ∀ call∈e.calls,call.command.Handler=some call.handler
  reachable : ∀ call∈e.calls,Reachable table text call.command
  taken : ∀ call∈e.calls,∃ d∈e.dispatches,d.command=call.command
  /-- The levels are those of the tree. -/
  levels : ∀ d∈e.dispatches,LevelOf table d.level
  /-- Each took the first command that it may. -/
  chosen : ∀ d∈e.dispatches,Chosen security d

theorem sound_none (table : List (ChatCommand η)) (text : List Char) :
    Sound security table text ⟨[],[],[],false⟩ := by
  constructor <;> simp

theorem sound_execute (table : List (ChatCommand η)) :
    ∀ text,Sound security table text (ExecuteCommandInTable security run table text) := by
  induction table using table_induction with
  | step table ih =>
      intro text
      rcases executeFrom_cases table table text with
        hnone | ⟨before,c,after,htable,hbefore,htakes,htaken⟩
      · rw [ExecuteCommandInTable,hnone]
        exact sound_none table text
      have hmem : c∈table := by
        rw [htable]
        exact List.mem_append_right _ List.mem_cons_self
      have hchosen : Chosen security ⟨table,word text,c⟩ := ⟨before,after,htable,hbefore,htakes⟩
      have hown : ∀ d∈[(⟨table,word text,c⟩ : Dispatch η)],
          LevelOf table d.level ∧ Chosen security d := by
        intro d hd
        rw [List.mem_singleton.mp hd]
        exact ⟨LevelOf.self table,hchosen⟩
      cases htaken with
      | children _ hdispatches hcalls =>
          have hchild := ih c hmem (behind text)
          constructor
          · rw [ExecuteCommandInTable,hcalls]
            exact hchild.once
          · rw [ExecuteCommandInTable,hcalls]
            exact hchild.allowed
          · rw [ExecuteCommandInTable,hcalls]
            exact hchild.handler
          · rw [ExecuteCommandInTable,hcalls]
            intro call hcall
            exact Reachable.child hmem htakes.1 (hchild.reachable call hcall)
          · rw [ExecuteCommandInTable,hcalls,hdispatches]
            intro call hcall
            obtain ⟨d,hd,heq⟩ := hchild.taken call hcall
            exact ⟨d,List.mem_cons_of_mem _ hd,heq⟩
          · rw [ExecuteCommandInTable,hdispatches]
            intro d hd
            rcases List.mem_cons.mp hd with heq | hrest
            · exact (hown d (List.mem_singleton.mpr heq)).1
            · exact LevelOf.child hmem (hchild.levels d hrest)
          · rw [ExecuteCommandInTable,hdispatches]
            intro d hd
            rcases List.mem_cons.mp hd with heq | hrest
            · exact (hown d (List.mem_singleton.mpr heq)).2
            · exact hchild.chosen d hrest
      | handler hleaf havailable hfound hdispatches hcalls =>
          rw [ExecuteCommandInTable]
          constructor
          · rw [hcalls]
            exact Nat.le_refl 1
          · rw [hcalls]
            intro call hcall
            rw [List.mem_singleton.mp hcall]
            exact havailable
          · rw [hcalls]
            intro call hcall
            rw [List.mem_singleton.mp hcall]
            exact hfound
          · rw [hcalls]
            intro call hcall
            rw [List.mem_singleton.mp hcall]
            exact Reachable.here hmem htakes.1 hleaf
          · rw [hcalls,hdispatches]
            intro call hcall
            rw [List.mem_singleton.mp hcall]
            exact ⟨_,List.mem_singleton_self _,rfl⟩
          · rw [hdispatches]
            exact fun d hd => (hown d hd).1
          · rw [hdispatches]
            exact fun d hd => (hown d hd).2

/-- At most one handler is called, one of a command within the security of the session that the text
reaches, and each level that was given a word obeys exactly where it is clear. -/
theorem commands_dispatch (security : UInt32) (run : η → List Char → Bool×Bool)
    (table : List (ChatCommand η)) (text : List Char) :
    (ExecuteCommandInTable security run table text).calls.length ≤ 1 ∧
      (∀ call∈(ExecuteCommandInTable security run table text).calls,
        call.command.SecurityLevel ≤ security ∧ call.command.Handler=some call.handler ∧
          ∃ d∈(ExecuteCommandInTable security run table text).dispatches,
            d.command=call.command) ∧
      ((∀ c,Reachable table text c → ¬isAvailable security c) →
        (ExecuteCommandInTable security run table text).calls=[]) ∧
      ∀ d∈(ExecuteCommandInTable security run table text).dispatches,
        LevelOf table d.level ∧ (Obeys d ↔ Clear security d.level d.cmd) := by
  have hsound : Sound security table text (ExecuteCommandInTable security run table text) :=
    sound_execute table text
  refine ⟨hsound.once,?_,?_,?_⟩
  · intro call hcall
    refine ⟨?_,hsound.handler call hcall,hsound.taken call hcall⟩
    have havailable := hsound.allowed call hcall
    simp only [isAvailable,decide_eq_true_eq] at havailable
    exact havailable
  · intro hnone
    rw [List.eq_nil_iff_forall_not_mem]
    intro call hcall
    exact hnone call.command (hsound.reachable call hcall) (hsound.allowed call hcall)
  · intro d hd
    exact ⟨hsound.levels d hd,obeys_line_iff (hsound.chosen d hd)⟩

/-- A longer name before the one that was typed in capitals. -/
def capitals : List (ChatCommand ℕ) :=
  [.mk ['g','m','x'] 0 (some 1) [] [],.mk ['g','m'] 0 (some 2) [] []]

/-- The word is given to the command that it is short for. -/
theorem not_obeys_capitals :
    ¬∀ (security : UInt32) (run : ℕ → List Char → Bool×Bool) (table : List (ChatCommand ℕ))
      (text : List Char),
      ∀ d∈(ExecuteCommandInTable security run table text).dispatches,Obeys d := by
  intro h
  have hobeys := h 0 (fun _ _ => (true,true)) capitals ['G','M']
    ⟨capitals,['G','M'],.mk ['g','m','x'] 0 (some 1) [] []⟩ List.mem_cons_self
  apply hobeys ⟨.mk ['g','m'] 0 (some 2) [] [],List.mem_cons_of_mem _ List.mem_cons_self,
    by simp only [SameName]; decide⟩
  rw [merelyAbbreviates_iff (by decide)]
  decide

/-! ## The data of the commands -/

mutual

/-- A command without the data that are loaded. -/
def bare : ChatCommand η → ChatCommand η
  | .mk name _ handler _ children => .mk name 0 handler [] (bareTable children)

/-- A table without the data that are loaded. -/
def bareTable : List (ChatCommand η) → List (ChatCommand η)
  | [] => []
  | c::table => bare c::bareTable table

end

theorem bare_setData (security : UInt32) (help : List Char) (c : ChatCommand η) :
    bare (c.setData security help)=bare c := by
  cases c
  simp only [ChatCommand.setData,bare]

/-- The data that are loaded change neither names nor handlers, and nothing at all where they are
refused. -/
theorem setData_bare (security : UInt32) (help : List Char) (table : List (ChatCommand η)) :
    ∀ text,bareTable (SetDataForCommandInTable table text security help).1=bareTable table ∧
      ((SetDataForCommandInTable table text security help).2=false →
        (SetDataForCommandInTable table text security help).1=table) := by
  induction table using table_induction with
  | step table ih =>
      intro text
      unfold SetDataForCommandInTable at ih ⊢
      induction table with
      | nil => exact ⟨rfl,fun _ => rfl⟩
      | cons c table ihtail =>
          have htail := ihtail fun d hd => ih d (List.mem_cons_of_mem c hd)
          have hchild : bare (setChildren security help c (behind text)).1=bare c ∧
              ((setChildren security help c (behind text)).2=false →
                (setChildren security help c (behind text)).1=c) := by
            have hown := ih c List.mem_cons_self (behind text)
            cases c with
            | mk name level handler oldHelp children =>
                simp only [ChatCommand.ChildCommands] at hown
                constructor
                · simp only [setChildren,bare,hown.1]
                · intro hfalse
                  simp only [setChildren] at hfalse ⊢
                  rw [hown.2 hfalse]
          by_cases hname : c.Name=word text
          · cases hleaf : c.ChildCommands.isEmpty with
            | true =>
                by_cases hbehind : behind text=[]
                · simp only [setDataFrom,hname,hleaf,hbehind,ne_eq,not_true_eq_false,if_false,
                    Bool.not_true,Bool.false_eq_true,bareTable,bare_setData,reduceCtorEq,
                    false_imp_iff,and_true]
                · simp only [setDataFrom,hname,hleaf,hbehind,ne_eq,not_true_eq_false,if_false,
                    Bool.not_true,Bool.false_eq_true,not_false_eq_true,if_true,imp_self,and_self]
            | false =>
                cases hdone : (setChildren security help c (behind text)).2 with
                | true =>
                    simp only [setDataFrom,hname,hleaf,hdone,ne_eq,not_true_eq_false,if_false,
                      Bool.not_false,if_true,bareTable,hchild.1,reduceCtorEq,false_imp_iff,
                      and_true]
                | false =>
                    by_cases hbehind : behind text=[]
                    · have hown : ¬behind text≠[] := not_not.mpr hbehind
                      simp only [setDataFrom,hname,hleaf,hdone,not_true_eq_false,if_false,
                        Bool.not_false,if_true,Bool.false_eq_true,ne_eq]
                      rw [if_neg hown]
                      simp only [bareTable,bare_setData,hchild.1,reduceCtorEq,false_imp_iff,
                        and_true]
                    · simp only [setDataFrom,hname,hleaf,hdone,hbehind,ne_eq,not_true_eq_false,
                        if_false,Bool.not_false,if_true,Bool.false_eq_true,not_false_eq_true,
                        hchild.2 hdone,imp_self,and_self]
          · simp only [setDataFrom,hname,ne_eq,not_false_eq_true,if_true,bareTable,htail.1,
              true_and]
            intro hfalse
            rw [htail.2 hfalse]

end Projectnelth.ChatCommandDispatch
