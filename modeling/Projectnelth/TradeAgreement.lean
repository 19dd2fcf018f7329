import Mathlib
import Projectnelth.RunInvariant
import Projectnelth.TradeModel

/-!
# Agreement on a trade

Every change of an offer takes back both acceptances, so a party whose acceptance
stands has accepted what is offered now. The execution writes the money of each party
twice and reads no result: what a party gives is always taken, but what it gets is
refused when its balance would reach `MAX_MONEY_AMOUNT`, and is then lost.
-/

namespace Projectnelth.TradeModel

open KeyedList PlayerMoney RunInvariant

theorem trader_ne (party : Party) : party.trader≠party := by cases party <;> decide

theorem eq_or_eq_trader (party other : Party) : other=party ∨ other=party.trader := by
  cases party <;> cases other <;> decide

/-- What the parties offer. -/
def offers (window : TradeWindow) (party : Party) :
    UInt64×UInt32×ℕ×(Fin TRADE_SLOT_COUNT → ℕ) :=
  ((window party).money,(window party).spell,(window party).spellCastItem,(window party).items)

section Setters
variable (window : TradeWindow) (party : Party)

theorem offers_setAccepted (state : Bool) :
    offers (setAccepted window party state)=offers window := by
  funext other
  unfold offers setAccepted
  by_cases h : other=party
  · subst h
    rw [Function.update_self]
  · rw [Function.update_of_ne h]

theorem money_setAccepted (state : Bool) (other : Party) :
    (setAccepted window party state other).money=(window other).money :=
  congrArg Prod.fst (congrFun (offers_setAccepted window party state) other)

theorem setAccepted_self (state : Bool) : (setAccepted window party state party).accepted=state := by
  unfold setAccepted
  rw [Function.update_self]

theorem setAccepted_of_ne (state : Bool) {other : Party} (h : other≠party) :
    setAccepted window party state other=window other := Function.update_of_ne h _ _

theorem unaccept_accepted (other : Party) : (unaccept window party other).accepted=false := by
  unfold unaccept
  rcases eq_or_eq_trader party other with rfl | rfl
  · rw [setAccepted_of_ne _ _ _ (trader_ne other).symm,setAccepted_self]
  · rw [setAccepted_self]

end Setters

/-- An acceptance that stands after a change stood before it, for the same offers. -/
def Keeps (window window' : TradeWindow) : Prop :=
  ∀ party,(window' party).accepted → (window party).accepted ∧ offers window=offers window'

theorem Keeps.refl (window : TradeWindow) : Keeps window window := fun _ h => ⟨h,rfl⟩

theorem Keeps.trans {window window' window'' : TradeWindow} (h : Keeps window window')
    (h' : Keeps window' window'') : Keeps window window'' := fun party ha =>
  ⟨(h party (h' party ha).1).1,(h party (h' party ha).1).2.trans (h' party ha).2⟩

theorem keeps_unaccept (window window' : TradeWindow) (party : Party) :
    Keeps window (unaccept window' party) := fun other ha => by
  rw [unaccept_accepted] at ha
  exact absurd ha Bool.false_ne_true

theorem keeps_setAccepted_false (window : TradeWindow) (party : Party) :
    Keeps window (setAccepted window party false) := fun other ha => by
  by_cases h : other=party
  · rw [h,setAccepted_self] at ha
    exact absurd ha Bool.false_ne_true
  · rw [setAccepted_of_ne _ _ _ h] at ha
    exact ⟨ha,(offers_setAccepted window party false).symm⟩

theorem keeps_setSpell (window : TradeWindow) (party : Party) (spell_id : UInt32) (castItem : ℕ) :
    Keeps window (setSpell window party spell_id castItem) := by
  unfold setSpell
  split
  · exact Keeps.refl window
  · exact keeps_unaccept window _ party

theorem keeps_setItem (window : TradeWindow) (party : Party) (slot : Fin TRADE_SLOT_COUNT)
    (itemGuid : ℕ) : Keeps window (setItem window party slot itemGuid) := by
  unfold setItem
  split
  · exact Keeps.refl window
  have hchanged := keeps_unaccept window (Function.update window party
    { window party with items := Function.update (window party).items slot itemGuid }) party
  refine Keeps.trans ?_ (keeps_setSpell _ party 0 0)
  split
  · exact hchanged.trans (keeps_setSpell _ party.trader 0 0)
  · exact hchanged

theorem keeps_setMoney (window : TradeWindow) (party : Party) (balance money : UInt64) :
    Keeps window (setMoney window party balance money) := by
  unfold setMoney
  split
  · exact Keeps.refl window
  · split
    · exact Keeps.refl window
    · exact keeps_unaccept window _ party

/-- The window as a message leaves it before its own checks: accepting comes first. -/
def presented (window : TradeWindow) (message : Message) : TradeWindow :=
  match message.op with
  | .accept => setAccepted window message.party true
  | _ => window

/-- The execution of the trade by a message. -/
def Executes (s : Table) (message : Message) (window : TradeWindow) : Prop :=
  s.trade=some window ∧ (handle s message).trade=none

/-- Everything that accepting can do to an open trade. -/
theorem handleAcceptTrade_cases (w : World) {s : Table} (player : Party) {window : TradeWindow}
    (h : s.trade=some window) :
    (∃ window',handleAcceptTrade w s player={ s with trade := some window' } ∧
      Keeps (setAccepted window player true) window') ∨
    ((window player.trader).accepted ∧ (∀ party,(window party).money ≤ s.money party) ∧
      handleAcceptTrade w s player=execute w s (setAccepted window player true) player) := by
  have htrader := setAccepted_of_ne window player true (trader_ne player)
  unfold handleAcceptTrade
  rw [h]
  dsimp only
  rw [money_setAccepted,money_setAccepted]
  split
  · exact Or.inl ⟨_,rfl,keeps_setAccepted_false _ player⟩
  rename_i hplayer
  split
  · exact Or.inl ⟨_,rfl,keeps_setAccepted_false _ player.trader⟩
  rename_i hother
  split
  · exact Or.inl ⟨_,rfl,Keeps.refl _⟩
  split
  · rename_i haccepted
    split
    · exact Or.inl ⟨_,rfl,keeps_setSpell _ player 0 0⟩
    split
    · exact Or.inl ⟨_,rfl,keeps_setSpell _ player.trader 0 0⟩
    split
    · exact Or.inl ⟨_,rfl,keeps_unaccept _ _ player⟩
    refine Or.inr ⟨htrader ▸ haccepted,fun party => ?_,rfl⟩
    rcases eq_or_eq_trader player party with rfl | rfl
    · exact not_not.mp hplayer
    · exact not_not.mp hother
  · exact Or.inl ⟨_,rfl,Keeps.refl _⟩

/-- Everything that a message can do to an open trade. -/
theorem handle_cases {s : Table} (message : Message) {window : TradeWindow}
    (h : s.trade=some window) :
    (∃ window',handle s message={ s with trade := some window' } ∧
      Keeps (presented window message) window') ∨
    (message.op=.accept ∧ (window message.party.trader).accepted ∧
      (∀ party,(window party).money ≤ s.money party) ∧
      handle s message=
        execute message.world s (setAccepted window message.party true) message.party) := by
  obtain ⟨money,inventory,trade⟩ := s
  dsimp only at h
  subst h
  obtain ⟨w,party,op⟩ := message
  cases op with
  | setTradeGold gold => exact Or.inl ⟨_,rfl,keeps_setMoney window party _ gold⟩
  | setTradeItem tradeSlot pos =>
    left
    simp only [handle,handleSetTradeItem,presented]
    split
    · split
      · exact ⟨window,rfl,Keeps.refl window⟩
      split
      · exact ⟨window,rfl,Keeps.refl window⟩
      · split
        · exact ⟨window,rfl,Keeps.refl window⟩
        · exact ⟨_,rfl,keeps_setItem window party _ _⟩
    · exact ⟨window,rfl,Keeps.refl window⟩
  | clearTradeItem tradeSlot =>
    left
    simp only [handle,handleClearTradeItem,presented]
    split
    · exact ⟨_,rfl,keeps_setItem window party _ 0⟩
    · exact ⟨window,rfl,Keeps.refl window⟩
  | accept =>
    rcases handleAcceptTrade_cases w party
      (s := { money := money, inventory := inventory, trade := some window }) rfl with hopen | hdone
    · exact Or.inl hopen
    · exact Or.inr ⟨rfl,hdone⟩
  | unaccept => exact Or.inl ⟨_,rfl,keeps_setAccepted_false window party⟩
  | castSpell spell_id castItem => exact Or.inl ⟨_,rfl,keeps_setSpell window party spell_id castItem⟩

/-- Without a trade nothing happens. -/
theorem handle_none {s : Table} (message : Message) (h : s.trade=none) : handle s message=s := by
  obtain ⟨money,inventory,trade⟩ := s
  dsimp only at h
  subst h
  obtain ⟨w,party,op⟩ := message
  cases op with
  | clearTradeItem tradeSlot => exact ite_self _
  | _ => rfl

/-- What the parties of the open trade offer. -/
def offered (s : Table) : Option (Party → UInt64×UInt32×ℕ×(Fin TRADE_SLOT_COUNT → ℕ)) :=
  s.trade.map offers

/-- The party has accepted what is offered now, and no offer has changed since. -/
def AcceptedSince (s : Table) (messages : List Message) (party : Party) : Prop :=
  ∃ before since,messages=before++since ∧
    (∃ m rest,since=m::rest ∧ m.op=.accept ∧ m.party=party) ∧
    ∀ earlier later,since=earlier++later →
      offered (run handle s (before++earlier))=offered (run handle s messages)

theorem offers_presented (window : TradeWindow) (message : Message) :
    offers (presented window message)=offers window := by
  unfold presented
  split
  · exact offers_setAccepted window message.party true
  · rfl

theorem accepted_presented {window : TradeWindow} {message : Message} {party : Party}
    (h : (presented window message party).accepted) :
    (message.op=.accept ∧ message.party=party) ∨ (window party).accepted := by
  obtain ⟨w,sender,op⟩ := message
  cases op with
  | accept =>
    by_cases hparty : party=sender
    · exact Or.inl ⟨rfl,hparty.symm⟩
    · refine Or.inr ?_
      rw [←setAccepted_of_ne window sender true hparty]
      exact h
  | _ => exact Or.inr h

theorem AcceptedSince.snoc {s : Table} {messages : List Message} {party : Party} {m : Message}
    (h : AcceptedSince s messages party)
    (heq : offered (run handle s messages)=offered (run handle s (messages++[m]))) :
    AcceptedSince s (messages++[m]) party := by
  obtain ⟨before,since,rfl,⟨a,rest,hsince,ha⟩,hsame⟩ := h
  refine ⟨before,since++[m],List.append_assoc _ _ _,⟨a,rest++[m],by rw [hsince]; rfl,ha⟩,?_⟩
  intro earlier later hsplit
  rcases List.eq_nil_or_concat later with rfl | ⟨init,last,rfl⟩
  · rw [List.append_nil] at hsplit
    rw [←hsplit,List.append_assoc]
  · rw [List.concat_eq_append,←List.append_assoc] at hsplit
    exact (hsame earlier init (List.append_inj' hsplit rfl).1).trans heq

/-- An acceptance that stands was given for what is offered now. -/
theorem accepted_since {s : Table}
    (hs : ∀ window,s.trade=some window → ∀ party,(window party).accepted=false)
    (messages : List Message) : ∀ {window : TradeWindow} {party : Party},
      (run handle s messages).trade=some window → (window party).accepted →
      AcceptedSince s messages party := by
  induction messages using List.reverseRecOn with
  | nil =>
    intro window party htrade ha
    rw [hs window htrade party] at ha
    exact absurd ha Bool.false_ne_true
  | append_singleton before m ih =>
    intro window party htrade ha
    have hrun : run handle s (before++[m])=handle (run handle s before) m := run_append _ _ _ _
    rw [hrun] at htrade
    cases hbefore : (run handle s before).trade with
    | none =>
      rw [handle_none m hbefore,hbefore] at htrade
      exact absurd htrade (Option.some_ne_none _).symm
    | some window₀ =>
      rcases handle_cases m hbefore with ⟨window',hstep,hkeeps⟩ | ⟨-,-,-,hstep⟩
      · rw [hstep] at htrade
        obtain rfl := Option.some.inj htrade
        obtain ⟨hpresented,hoffers⟩ := hkeeps party ha
        rw [offers_presented] at hoffers
        have heq : offered (run handle s before)=offered (run handle s (before++[m])) := by
          rw [hrun,hstep]
          unfold offered
          rw [hbefore]
          exact congrArg some hoffers
        rcases accepted_presented hpresented with haccept | hstood
        · refine ⟨before,[m],rfl,⟨m,[],rfl,haccept⟩,fun earlier later hsplit => ?_⟩
          cases earlier with
          | nil => rw [List.append_nil,heq]
          | cons a earlier =>
            obtain ⟨rfl,hnil⟩ := List.cons.inj hsplit
            rw [(List.append_eq_nil_iff.mp hnil.symm).1]
        · exact (ih hbefore hstood).snoc heq
      · rw [hstep] at htrade
        exact absurd htrade (Option.some_ne_none _).symm

/-- A balance after the offer of its player is taken and the other offer is paid. -/
def settle (balance own others : UInt64) : UInt64 :=
  (ModifyMoney (ModifyMoney balance (-own.toInt64)).1 others.toInt64).1

theorem exchangeMoney_apply (money : Party → UInt64) (player : Party) (offer : Party → UInt64)
    (party : Party) :
    exchangeMoney money player (offer player) (offer player.trader) party=
      settle (money party) (offer party) (offer party.trader) := by
  cases player <;> cases party <;> rfl

/-- The offer that a party gets is paid in full just when the balance stays below the cap. -/
theorem settle_exact {balance own others : UInt64} (hown : own ≤ balance)
    (hbalance : balance ≤ MAX_MONEY_AMOUNT) (hothers : others ≤ MAX_MONEY_AMOUNT) :
    (settle balance own others).toNat+own.toNat=balance.toNat+others.toNat ↔
      others=0 ∨ balance.toNat+others.toNat < MAX_MONEY_AMOUNT.toNat+own.toNat := by
  have hmax := MAX_MONEY_AMOUNT_toNat
  have hown' := UInt64.le_iff_toNat_le.mp hown
  have hbalance' := UInt64.le_iff_toNat_le.mp hbalance
  have hothers' := UInt64.le_iff_toNat_le.mp hothers
  have hrest := UInt64.toNat_sub_of_le _ _ hown
  unfold settle
  rw [ModifyMoney_debit hown (by omega),ModifyMoney_credit hothers,hrest]
  have hfits : balance.toNat-own.toNat+others.toNat < MAX_MONEY_AMOUNT.toNat ↔
      balance.toNat+others.toNat < MAX_MONEY_AMOUNT.toNat+own.toNat := by omega
  rw [←hfits]
  by_cases hpaid : others=0 ∨ balance.toNat-own.toNat+others.toNat < MAX_MONEY_AMOUNT.toNat
  · rw [if_pos hpaid]
    refine iff_of_true ?_ hpaid
    rw [toNat_add_of_lt (by rw [hrest]; omega),hrest]
    omega
  · rw [if_neg hpaid]
    refine iff_of_false (fun hexact => hpaid (Or.inl (UInt64.toNat_inj.mp ?_))) hpaid
    rw [hrest] at hexact
    simp only [UInt64.toNat_zero]
    omega

/-- The trade as it is opened. -/
def openTrade (money : Party → UInt64) (inventory : Party → Inventory) : Table :=
  { money := money
    inventory := inventory
    trade := some fun _ =>
      { accepted := false, money := 0, spell := 0, spellCastItem := 0, items := fun _ => 0 } }

/-- The money of both parties changes by just the two offers. -/
structure Exact (s s' : Table) (window : TradeWindow) : Prop where
  /-- Each party gives its offer and gets the other one. -/
  exchanged : ∀ party,(s'.money party).toNat+(window party).money.toNat=
    (s.money party).toNat+(window party.trader).money.toNat
  /-- No money is made or lost. -/
  total : (s'.money .one).toNat+(s'.money .two).toNat=
    (s.money .one).toNat+(s.money .two).toNat

/-- What is right about a message that follows others. -/
structure Lawful (start : Table) (before : List Message) (m : Message) : Prop where
  /-- Whoever completes a trade accepts by this message, and the other party has accepted
  since the last change of an offer. -/
  agreed : ∀ window,Executes (run handle start before) m window →
    m.op=.accept ∧ AcceptedSince start before m.party.trader
  /-- The money that is exchanged is what was offered. -/
  exact : ∀ window,Executes (run handle start before) m window →
    Exact (run handle start before) (handle (run handle start before) m) window
  /-- A message that does not complete the trade moves no money and no item. -/
  untouched : (¬∃ window,Executes (run handle start before) m window) →
    (handle (run handle start before) m).money=(run handle start before).money ∧
    (handle (run handle start before) m).inventory=(run handle start before).inventory

/-- Each party is offered nothing, or stays below the cap with what it is offered. -/
def Fits (s : Table) (window : TradeWindow) : Prop :=
  ∀ party,(window party.trader).money=0 ∨
    (s.money party).toNat+(window party.trader).money.toNat<
      MAX_MONEY_AMOUNT.toNat+(window party).money.toNat

/-- The money that the parties of an open trade have. -/
def OpenMoney (money : Party → UInt64) (s : Table) : Prop :=
  ∀ window,s.trade=some window → s.money=money

theorem openMoney_handle {money : Party → UInt64} (s : Table) (m : Message)
    (hs : OpenMoney money s) : OpenMoney money (handle s m) := by
  intro window htrade
  cases hopen : s.trade with
  | none =>
    rw [handle_none m hopen,hopen] at htrade
    exact absurd htrade (Option.some_ne_none _).symm
  | some before =>
    rcases handle_cases m hopen with ⟨window',hstep,-⟩ | ⟨-,-,-,hstep⟩
    · rw [hstep]
      exact hs before hopen
    · rw [hstep] at htrade
      exact absurd htrade (Option.some_ne_none _).symm

/-- While the trade is open nobody has given or got money. -/
theorem openMoney_run (start : Table) (messages : List Message) :
    OpenMoney start.money (run handle start messages) :=
  run_invariant_always openMoney_handle (fun _ _ => rfl) messages

/-- An execution exchanges the offers just when both of them fit. -/
theorem executes_exact {s : Table} {m : Message} {window : TradeWindow}
    (hmoney : ∀ party,s.money party ≤ MAX_MONEY_AMOUNT) (h : Executes s m window) :
    m.op=.accept ∧ (window m.party.trader).accepted ∧
      (Exact s (handle s m) window ↔ Fits s window) := by
  rcases handle_cases m h.1 with ⟨window',hstep,-⟩ | ⟨hop,haccepted,hoffer,hstep⟩
  · have hnone := h.2
    rw [hstep] at hnone
    exact absurd hnone (Option.some_ne_none _)
  · refine ⟨hop,haccepted,?_⟩
    have hsettled : ∀ party,(handle s m).money party=
        settle (s.money party) (window party).money (window party.trader).money := fun party => by
      rw [hstep]
      unfold execute
      dsimp only
      rw [money_setAccepted,money_setAccepted]
      exact exchangeMoney_apply s.money m.party (fun other => (window other).money) party
    have hparty : ∀ party,((handle s m).money party).toNat+(window party).money.toNat=
        (s.money party).toNat+(window party.trader).money.toNat ↔
        (window party.trader).money=0 ∨ (s.money party).toNat+(window party.trader).money.toNat<
          MAX_MONEY_AMOUNT.toNat+(window party).money.toNat := fun party => by
      rw [hsettled]
      exact settle_exact (hoffer party) (hmoney party)
        (UInt64.le_trans (hoffer party.trader) (hmoney party.trader))
    refine ⟨fun hexact party => (hparty party).mp (hexact.exchanged party),fun hfits => ?_⟩
    have hexchanged := fun party => (hparty party).mpr (hfits party)
    refine ⟨hexchanged,?_⟩
    have hone := hexchanged .one
    have htwo := hexchanged .two
    simp only [Party.trader] at hone htwo
    omega

/-- A message that does not complete the trade writes only the trade. -/
theorem untouched_of_not_executes {s : Table} {m : Message} (h : ¬∃ window,Executes s m window) :
    (handle s m).money=s.money ∧ (handle s m).inventory=s.inventory := by
  cases hs : s.trade with
  | none =>
    rw [handle_none m hs]
    exact ⟨rfl,rfl⟩
  | some window =>
    rcases handle_cases m hs with ⟨window',hstep,-⟩ | ⟨-,-,-,hstep⟩
    · rw [hstep]
      exact ⟨rfl,rfl⟩
    · refine absurd ⟨window,hs,?_⟩ h
      rw [hstep]
      rfl

/-- At every place of every run of an opened trade, everything is right just when the
execution, if this is the place of it, leaves both balances below the cap or unpaid. -/
theorem trade_agreement {money : Party → UInt64} (hmoney : ∀ party,money party ≤ MAX_MONEY_AMOUNT)
    (inventory : Party → Inventory) (before : List Message) (m : Message) :
    Lawful (openTrade money inventory) before m ↔
      ∀ window,Executes (run handle (openTrade money inventory) before) m window →
        Fits (run handle (openTrade money inventory) before) window := by
  have hexecutes : ∀ {window},Executes (run handle (openTrade money inventory) before) m window →
      m.op=.accept ∧ (window m.party.trader).accepted ∧
      (Exact (run handle (openTrade money inventory) before)
        (handle (run handle (openTrade money inventory) before) m) window ↔
        Fits (run handle (openTrade money inventory) before) window) := fun h =>
    executes_exact (fun party => by
      rw [openMoney_run (openTrade money inventory) before _ h.1]
      exact hmoney party) h
  constructor
  · intro hlawful window h
    exact (hexecutes h).2.2.mp (hlawful.exact window h)
  intro hfits
  refine ⟨fun window h => ⟨(hexecutes h).1,?_⟩,
    fun window h => (hexecutes h).2.2.mpr (hfits window h),untouched_of_not_executes⟩
  refine accepted_since (fun window₀ hopen party => ?_) before h.1 (hexecutes h).2.1
  obtain rfl := Option.some.inj hopen
  rfl

/-- A world where everything can be stored and cast. -/
def quietWorld : World :=
  { spellInfo := fun _ => true
    checkCast := fun _ _ => true
    canStoreItems := fun _ _ => true
    canStoreItem := fun _ _ dest _ => (true,dest)
    storeItem := fun inventory _ _ => inventory }

/-- The first party has 1000 copper, the second one what is given. -/
def purses (rich : UInt64) : Party → UInt64
  | .one => 1000
  | .two => rich

/-- The first party offers gold; both accept. -/
def gift (gold : UInt64) : List Message :=
  [⟨quietWorld,.one,.setTradeGold gold⟩,⟨quietWorld,.one,.accept⟩]

/-- A gift of 500 to a party that has 20. -/
theorem trade_agreement_gift :
    (∀ party,purses 20 party ≤ MAX_MONEY_AMOUNT) ∧
    Lawful (openTrade (purses 20) fun _ => []) (gift 500) ⟨quietWorld,.two,.accept⟩ := by
  have hmoney : ∀ party,purses 20 party ≤ MAX_MONEY_AMOUNT := fun party => by
    cases party <;> decide
  refine ⟨hmoney,(trade_agreement hmoney (fun _ => []) (gift 500) _).mpr fun window h party => ?_⟩
  obtain rfl := Option.some.inj h.1
  cases party <;> decide

/-- A gift of 500 to a party just below the cap is lost. -/
theorem gift_lost :
    ¬Lawful (openTrade (purses 9999999998) fun _ => []) (gift 500) ⟨quietWorld,.two,.accept⟩ := by
  intro h
  have htotal := (h.exact _ ⟨rfl,by decide⟩).total
  revert htotal
  decide

end Projectnelth.TradeModel
