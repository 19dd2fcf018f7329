import Mathlib
import Projectnelth.RunInvariant
import Projectnelth.LootLists

/-!
# What is handed out

An entry that is not free for all is stored once, a free-for-all entry once for each player,
and both with the count they were filled with, as long as whoever hands an entry out looks at
the mark of the entry and, for a free-for-all entry, at that of the player.
-/

namespace Projectnelth.LootModel

open KeyedList RunInvariant

/-- The player's own entry for a free-for-all entry bears the mark. -/
def Marked (loot : Loot) (place : Place) (player : ℕ) : Prop :=
  ∃ q∈loot.own place.ffaKind player place.index,q.is_looted=true

instance (loot : Loot) (place : Place) (player : ℕ) : Decidable (Marked loot place player) :=
  decidable_of_iff ((loot.own place.ffaKind player place.index).any (·.is_looted)=true) (by
    unfold Marked
    cases loot.own place.ffaKind player place.index <;> simp)

/-- An entry comes from an earlier one: it keeps its kind, and while it bears no mark it bore
none and keeps its count. -/
def ComesFrom (item old : LootItem) : Prop :=
  item.freeforall=old.freeforall ∧
    (item.is_looted=false → old.is_looted=false ∧ item.count=old.count)

theorem ComesFrom.refl (item : LootItem) : ComesFrom item item := ⟨rfl,fun h => ⟨h,rfl⟩⟩

theorem ComesFrom.trans {a b c : LootItem} (hab : ComesFrom a b) (hbc : ComesFrom b c) :
    ComesFrom a c := by
  refine ⟨hab.1.trans hbc.1,fun h => ?_⟩
  obtain ⟨hb,hcount⟩ := hab.2 h
  exact ⟨(hbc.2 hb).1,hcount.trans (hbc.2 hb).2⟩

/-- A loot after some steps: its entries come from the earlier ones, and marks stay. -/
structure Later (loot loot' : Loot) : Prop where
  entry : ∀ place item,loot'.get place=some item →
    ∃ old,loot.get place=some old ∧ ComesFrom item old
  marked : ∀ place player,Marked loot place player → Marked loot' place player

variable {filled loot loot' : Loot} {player slot index : ℕ} {place : Place}

theorem Later.refl (loot : Loot) : Later loot loot :=
  ⟨fun _ item h => ⟨item,h,.refl item⟩,fun _ _ h => h⟩

theorem Later.trans {loot'' : Loot} (h : Later loot loot') (h' : Later loot' loot'') :
    Later loot loot'' := by
  refine ⟨fun place item hitem => ?_,fun place player hm => h'.marked _ _ (h.marked _ _ hm)⟩
  obtain ⟨mid,hmid,hfrom⟩ := h'.entry place item hitem
  obtain ⟨old,hold,hfrom'⟩ := h.entry place mid hmid
  exact ⟨old,hold,hfrom.trans hfrom'⟩

/-- Writes to what was given or to the counter do not touch the entries. -/
theorem Later.of_eq (hget : ∀ place,loot'.get place=loot.get place)
    (hlists : loot'.lists=loot.lists) : Later loot loot' := by
  refine ⟨fun place item h => ⟨item,(hget place).symm.trans h,.refl item⟩,fun place player hm => ?_⟩
  unfold Marked Loot.own at hm ⊢
  rw [hlists]
  exact hm

theorem get_give (loot : Loot) (place other : Place) (player count : ℕ) :
    (loot.give place player count).get other=loot.get other := by cases other <;> rfl

theorem get_countDown (loot : Loot) (other : Place) : loot.countDown.get other=loot.get other := by
  cases other <;> rfl

/-- A write to an entry from which the new entry comes. -/
theorem Later.modify {f : LootItem → LootItem} (hf : ∀ item,ComesFrom (f item) item)
    (loot : Loot) (place : Place) : Later loot (loot.modify f place) := by
  refine ⟨fun other item h => ?_,fun other player hm => ?_⟩
  · rw [get_modify] at h
    split at h
    · obtain ⟨old,hold,rfl⟩ := Option.map_eq_some_iff.mp h
      exact ⟨old,hold,hf old⟩
    · exact ⟨item,h,.refl item⟩
  · unfold Marked Loot.own at hm ⊢
    rw [lists_modify]
    exact hm

theorem Later.markOwn (loot : Loot) (player index : ℕ) (own : Option Kind) :
    Later loot (loot.markOwn player index own) := by
  refine ⟨fun other item h => ⟨item,(get_markOwn own other).symm.trans h,.refl item⟩,
    fun other player' hm => ?_⟩
  obtain ⟨q,hq,hmark⟩ := hm
  have hq : loot.own other.ffaKind player' other.index=some q := hq
  unfold Marked
  rw [own_markOwn,hq]
  split
  · exact ⟨_,rfl,rfl⟩
  · exact ⟨q,rfl,hmark⟩

theorem Later.enter {f : Filling} (hf : ∀ item,ComesFrom (f.note item) item) (loot : Loot)
    (player index : ℕ) : Later loot (loot.enter f player index) := by
  refine ⟨fun other item h => ?_,fun other player' hm => ?_⟩
  · rw [get_enter] at h
    split at h
    · obtain ⟨old,hold,rfl⟩ := Option.map_eq_some_iff.mp h
      exact ⟨old,hold,hf old⟩
    · exact ⟨item,h,.refl item⟩
  · obtain ⟨q,hq,hmark⟩ := hm
    exact ⟨q,own_enter f _ _ _ hq,hmark⟩

/-- What holds of the things that were handed out of a loot that was filled. -/
structure Once (filled loot : Loot) : Prop where
  /-- No list holds an entry twice. -/
  keys : Keys loot
  /-- The entries come from those that were filled. -/
  entry : ∀ place item,loot.get place=some item →
    ∃ old,filled.get place=some old ∧ ComesFrom item old
  counts : ∀ g∈loot.given,∃ item,filled.get g.place=some item ∧ g.count=item.count
  /-- An entry that is not free for all is marked when it was stored. -/
  shared : ∀ g∈loot.given,∀ item,loot.get g.place=some item → item.freeforall=false →
    item.is_looted=true
  /-- A free-for-all entry is marked for the player when it was stored. -/
  own : ∀ g∈loot.given,∀ item,loot.get g.place=some item → item.freeforall=true →
    item.is_looted=true ∨ Marked loot g.place g.player
  /-- An entry that is not free for all was stored at most once. -/
  once : ∀ place item,loot.get place=some item → item.freeforall=false →
    loot.given.countP (fun g => g.place=place) ≤ 1
  /-- A free-for-all entry was stored at most once by each player. -/
  onceEach : ∀ place item,loot.get place=some item → item.freeforall=true →
    ∀ player,loot.given.countP (fun g => g.place=place ∧ g.player=player) ≤ 1

/-- Steps that hand nothing out. -/
theorem Once.later (h : Once filled loot) (hlater : Later loot loot') (hkeys : Keys loot')
    (hgiven : loot'.given=loot.given) : Once filled loot' where
  keys := hkeys
  entry place item hitem := by
    obtain ⟨mid,hmid,hfrom⟩ := hlater.entry place item hitem
    obtain ⟨old,hold,hfrom'⟩ := h.entry place mid hmid
    exact ⟨old,hold,hfrom.trans hfrom'⟩
  counts := by
    rw [hgiven]
    exact h.counts
  shared g hg item hitem hffa := by
    rw [hgiven] at hg
    obtain ⟨old,hold,hfrom⟩ := hlater.entry _ item hitem
    have hlooted := h.shared g hg old hold (hfrom.1 ▸ hffa)
    refine Bool.of_not_eq_false fun hmark => ?_
    rw [(hfrom.2 hmark).1] at hlooted
    cases hlooted
  own g hg item hitem hffa := by
    rw [hgiven] at hg
    obtain ⟨old,hold,hfrom⟩ := hlater.entry _ item hitem
    refine (h.own g hg old hold (hfrom.1 ▸ hffa)).imp (fun hlooted => ?_) (hlater.marked _ _)
    refine Bool.of_not_eq_false fun hmark => ?_
    rw [(hfrom.2 hmark).1] at hlooted
    cases hlooted
  once place item hitem hffa := by
    obtain ⟨old,hold,hfrom⟩ := hlater.entry _ item hitem
    rw [hgiven]
    exact h.once place old hold (hfrom.1 ▸ hffa)
  onceEach place item hitem hffa player := by
    obtain ⟨old,hold,hfrom⟩ := hlater.entry _ item hitem
    rw [hgiven]
    exact h.onceEach place old hold (hfrom.1 ▸ hffa) player

/-- An entry without a mark was not stored before, nor was it by the player if it is free for
all and the player's own entry bears no mark. -/
theorem Once.none_given (h : Once filled loot) {item : LootItem} (hitem : loot.get place=some item)
    (hfree : item.is_looted=false) {g : Grant} (hg : g∈loot.given) (hplace : g.place=place) :
    item.freeforall=true ∧ Marked loot place g.player := by
  subst hplace
  cases hffa : item.freeforall with
  | false =>
    have hlooted := h.shared g hg item hitem hffa
    rw [hfree] at hlooted
    cases hlooted
  | true =>
    refine ⟨rfl,(h.own g hg item hitem hffa).resolve_left fun hlooted => ?_⟩
    rw [hfree] at hlooted
    cases hlooted

/-- An entry without a mark is handed out to a player whose own entry bears none, and marked. -/
theorem Once.grant (h : Once filled loot) {item : LootItem} (hitem : loot.get place=some item)
    (hfree : item.is_looted=false) (hown : item.freeforall=true → ¬Marked loot place player)
    (hlater : Later loot loot') (hkeys : Keys loot')
    (hgiven : loot'.given=⟨place,player,item.count⟩::loot.given)
    (hmark : ∀ item',loot'.get place=some item' →
      item'.is_looted=true ∨ (item.freeforall=true ∧ Marked loot' place player)) :
    Once filled loot' := by
  have hold := @Once.later _ _ {loot' with given := loot.given} h
    (hlater.trans (Later.of_eq (fun other => by cases other <;> rfl) rfl)) hkeys rfl
  have hget : ∀ other,({loot' with given := loot.given} : Loot).get other=loot'.get other :=
    fun other => by cases other <;> rfl
  have hentry : ∀ item',loot'.get place=some item' → item'.freeforall=item.freeforall := by
    intro item' hitem'
    obtain ⟨mid,hmid,hfrom⟩ := hlater.entry _ item' hitem'
    rw [hfrom.1,Option.some.inj (hmid.symm.trans hitem)]
  refine ⟨hkeys,fun other item' hitem' => hold.entry other item' ((hget other).trans hitem'),
    fun g hg => ?_,fun g hg item' hitem' hffa => ?_,fun g hg item' hitem' hffa => ?_,
    fun other item' hitem' hffa => ?_,fun other item' hitem' hffa player' => ?_⟩
  · rw [hgiven] at hg
    obtain rfl | hg := List.mem_cons.mp hg
    · obtain ⟨orig,horig,hfrom⟩ := h.entry place item hitem
      exact ⟨orig,horig,(hfrom.2 hfree).2⟩
    · exact h.counts g hg
  · rw [hgiven] at hg
    obtain rfl | hg := List.mem_cons.mp hg
    · refine (hmark item' hitem').resolve_right fun hm => ?_
      rw [hentry item' hitem',hm.1] at hffa
      cases hffa
    · exact hold.shared g hg item' ((hget _).trans hitem') hffa
  · rw [hgiven] at hg
    obtain rfl | hg := List.mem_cons.mp hg
    · exact (hmark item' hitem').imp_right And.right
    · exact hold.own g hg item' ((hget _).trans hitem') hffa
  · rw [hgiven,List.countP_cons]
    by_cases hplace : place=other
    · subst hplace
      have hzero : loot.given.countP (fun g => g.place=place)=0 := by
        refine List.countP_eq_zero.mpr fun g hg hp => ?_
        have hno := (h.none_given hitem hfree hg (of_decide_eq_true hp)).1
        rw [← hentry item' hitem',hffa] at hno
        cases hno
      rw [hzero]
      split <;> omega
    · rw [if_neg (by simpa using hplace)]
      exact hold.once other item' ((hget _).trans hitem') hffa
  · rw [hgiven,List.countP_cons]
    by_cases hplace : place=other ∧ player=player'
    · obtain ⟨rfl,rfl⟩ := hplace
      have hzero : loot.given.countP (fun g => g.place=place ∧ g.player=player)=0 := by
        refine List.countP_eq_zero.mpr fun g hg hp => ?_
        obtain ⟨hp,hplayer⟩ := of_decide_eq_true hp
        obtain ⟨hffa,hmarked⟩ := h.none_given hitem hfree hg hp
        exact hown hffa (hplayer ▸ hmarked)
      rw [hzero]
      split <;> omega
    · rw [if_neg (by simpa using hplace)]
      exact hold.onceEach other item' ((hget _).trans hitem') hffa player'

/-! ## The ways an entry is handed out -/

/-- What `StoreLootItem` stores bears no mark, and a free-for-all entry goes by the player's own
entry. -/
def Loot.StoreFair (loot : Loot) (player slot : ℕ) (allowed : LootItem → Bool) (canStore : Bool) :
    Prop :=
  ∀ x∈loot.storable player slot allowed canStore,
    x.2.is_looted=false ∧ (x.2.freeforall=true → x.1.own.isSome=true)

/-- What the master looter gives bears no mark, nor does the target's own entry. -/
def Loot.GiveFair (loot : Loot) (target slot : ℕ) (allowed : LootItem → Bool) (canStore : Bool) :
    Prop :=
  ∀ item∈loot.givable slot allowed canStore,
    item.is_looted=false ∧ (item.freeforall=true → ¬Marked loot (loot.placeOf slot) target)

/-- What the winner of a roll stores bears no mark, nor does the winner's own entry. -/
def Loot.AwardFair (loot : Loot) (slot : ℕ) : Outcome → Prop
  | .won player true => ∀ item∈loot.get (loot.placeOf slot),item.is_looted=false ∧
      (item.freeforall=true → ¬Marked loot (loot.placeOf slot) player)
  | _ => True

instance (loot : Loot) (player slot : ℕ) (allowed : LootItem → Bool) (canStore : Bool) :
    Decidable (loot.StoreFair player slot allowed canStore) := by
  unfold Loot.StoreFair
  infer_instance

instance (loot : Loot) (target slot : ℕ) (allowed : LootItem → Bool) (canStore : Bool) :
    Decidable (loot.GiveFair target slot allowed canStore) := by
  unfold Loot.GiveFair
  infer_instance

instance (loot : Loot) (slot : ℕ) (outcome : Outcome) :
    Decidable (loot.AwardFair slot outcome) := by
  unfold Loot.AwardFair
  split <;> infer_instance

theorem comesFrom_markShared (item : LootItem) : ComesFrom (markShared item) item := by
  unfold markShared
  split
  · exact .refl item
  · exact ⟨rfl,(by rintro ⟨⟩)⟩

theorem Keys.modify (h : Keys loot) (f : LootItem → LootItem) (place : Place) :
    Keys (loot.modify f place) := by
  intro kind
  rw [lists_modify]
  exact h kind

theorem marked_markOwn {kind : Kind} {q : QuestItem} (hkind : kind=place.ffaKind)
    (hq : loot.own kind player place.index=some q) :
    Marked (loot.markOwn player place.index (some kind)) place player := by
  subst hkind
  refine ⟨⟨player,place.index,true⟩,?_,rfl⟩
  rw [own_markOwn,if_pos ⟨rfl,rfl,rfl⟩,hq]
  rfl

theorem marked_congr (h : loot'.lists=loot.lists) :
    Marked loot' place player ↔ Marked loot place player := by
  unfold Marked Loot.own
  rw [h]

theorem Once.store (h : Once filled loot) {allowed : LootItem → Bool} {canStore : Bool}
    (hfair : loot.StoreFair player slot allowed canStore) :
    Once filled (loot.storeLootItem player slot allowed canStore) := by
  unfold Loot.storeLootItem
  cases hstorable : loot.storable player slot allowed canStore with
  | none => exact h
  | some x =>
    obtain ⟨pick,item⟩ := x
    obtain ⟨hpicked,hitem⟩ := picked_storable h.keys hstorable
    obtain ⟨hfree,hownSome⟩ := hfair (pick,item) hstorable
    have hfree : item.is_looted=false := hfree
    dsimp only
    -- the mark of the player is set before the shared one
    have hlater := (((Later.of_eq (get_give loot pick.place · player item.count) rfl).trans
      (Later.markOwn _ player pick.index pick.own)).trans
      (Later.modify comesFrom_markShared _ pick.place)).trans
      (Later.of_eq (get_countDown _) rfl)
    have hget : ((((loot.give pick.place player item.count).markOwn player pick.index
        pick.own).modify markShared pick.place).countDown).get pick.place=
          some (markShared item) := by
      rw [get_countDown]
      exact get_modify_self ((get_markOwn pick.own pick.place).trans
        ((get_give ..).trans hitem))
    have hkeys : Keys (((loot.give pick.place player item.count).markOwn player pick.index
        pick.own).modify markShared pick.place) :=
      Keys.modify (Keys.markOwn (show Keys (loot.give pick.place player item.count) from h.keys)
        player pick.index pick.own) markShared pick.place
    refine h.grant hitem hfree (fun hffa (hmarked : Marked loot pick.place player) => ?_) hlater
      hkeys ?_ fun item' hitem' => ?_
    · obtain ⟨kind,hkind⟩ := Option.isSome_iff_exists.mp (hownSome hffa)
      obtain ⟨_,q,hq,hmark⟩ := hpicked.own kind hkind
      obtain ⟨q',hq',hmark'⟩ := hmarked
      rw [← hpicked.ffa kind item hkind hitem hffa,← hpicked.index,hq] at hq'
      rw [Option.some.inj hq',hmark'] at hmark
      cases hmark
    · show (((loot.give pick.place player item.count).markOwn player pick.index
        pick.own).modify markShared pick.place).given=_
      rw [given_modify,given_markOwn]
      rfl
    · obtain rfl := Option.some.inj (hget.symm.trans hitem')
      by_cases hffa : item.freeforall=true
      · refine Or.inr ⟨hffa,?_⟩
        obtain ⟨kind,hkind⟩ := Option.isSome_iff_exists.mp (hownSome hffa)
        obtain ⟨_,q,hq,_⟩ := hpicked.own kind hkind
        have hffaKind := hpicked.ffa kind item hkind hitem hffa
        rw [hpicked.index] at hq ⊢
        have hlists : ((((loot.give pick.place player item.count).markOwn player
            pick.place.index pick.own).modify markShared pick.place).countDown).lists=
              ((loot.give pick.place player item.count).markOwn player pick.place.index
                pick.own).lists := lists_modify _
        rw [marked_congr hlists,hkind]
        exact marked_markOwn hffaKind
          (show (loot.give pick.place player item.count).own kind player pick.place.index=some q
            from hq)
      · unfold markShared
        rw [if_neg hffa]
        exact Or.inl rfl

/-- An entry goes to a player whose own entry bears no mark, and is marked for everybody. -/
theorem Once.hand (h : Once filled loot) {item : LootItem} (hitem : loot.get place=some item)
    (hfree : item.is_looted=false) (hown : item.freeforall=true → ¬Marked loot place player)
    {f : LootItem → LootItem} (hf : ∀ item,(f item).is_looted=true ∧
      (f item).freeforall=item.freeforall) :
    Once filled ((loot.give place player item.count).modify f place).countDown := by
  have hfrom : ∀ item,ComesFrom (f item) item := fun item =>
    ⟨(hf item).2,fun hno => by rw [(hf item).1] at hno; cases hno⟩
  have hlater := ((Later.of_eq (get_give loot place · player item.count) rfl).trans
    (Later.modify hfrom _ place)).trans (Later.of_eq (get_countDown _) rfl)
  have hget : ((loot.give place player item.count).modify f place).countDown.get place=
      some (f item) := by
    rw [get_countDown]
    exact get_modify_self ((get_give ..).trans hitem)
  refine h.grant hitem hfree hown hlater
    (Keys.modify (show Keys (loot.give place player item.count) from h.keys) f place) ?_
    fun item' hitem' => ?_
  · show ((loot.give place player item.count).modify f place).given=_
    rw [given_modify]
    rfl
  · obtain rfl := Option.some.inj (hget.symm.trans hitem')
    exact Or.inl (hf item).1

theorem get_of_givable {allowed : LootItem → Bool} {canStore : Bool} {item : LootItem}
    (h : loot.givable slot allowed canStore=some item) :
    loot.get (loot.placeOf slot)=some item := by
  unfold Loot.givable at h
  split at h
  · cases h
  · rename_i other hother
    split_ifs at h
    rw [hother,Option.some.inj h]

theorem Once.masterGive (h : Once filled loot) {target : ℕ} {allowed : LootItem → Bool}
    {canStore : Bool} (hfair : loot.GiveFair target slot allowed canStore) :
    Once filled (loot.masterGive target slot allowed canStore) := by
  unfold Loot.masterGive
  cases hgivable : loot.givable slot allowed canStore with
  | none => exact h
  | some item =>
    obtain ⟨hfree,hown⟩ := hfair item hgivable
    exact h.hand (get_of_givable hgivable) hfree hown fun _ => ⟨rfl,rfl⟩

/-- A write that marks an entry or leaves its mark. -/
theorem Once.write (h : Once filled loot) {f : LootItem → LootItem}
    (hf : ∀ item,ComesFrom (f item) item) (place : Place) : Once filled (loot.modify f place) :=
  h.later (Later.modify hf loot place) (h.keys.modify f place) (given_modify f)

theorem Once.award (h : Once filled loot) {outcome : Outcome}
    (hfair : loot.AwardFair slot outcome) : Once filled (loot.award slot outcome) := by
  have hunblock : ∀ item : LootItem,ComesFrom {item with is_blocked := false} item := fun item =>
    ⟨rfl,fun hno => ⟨hno,rfl⟩⟩
  unfold Loot.award
  split
  · exact h
  rename_i item hitem
  dsimp only
  split
  · obtain ⟨hfree,hown⟩ := hfair item hitem
    exact h.hand hitem hfree hown fun _ => ⟨rfl,rfl⟩
  · have hmodify := h.write (f := fun item => {item with is_looted := true})
      (fun _ => ⟨rfl,(by rintro ⟨⟩)⟩) (loot.placeOf slot)
    exact hmodify.later (Later.of_eq (get_countDown _) rfl) hmodify.keys rfl
  · exact h
  · exact h
  · exact h.write hunblock _
  · exact h.write hunblock _

end Projectnelth.LootModel
