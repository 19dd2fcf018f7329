import Mathlib
import Projectnelth.ArenaTeamModel

/-!
# The arena team fields of a player

However the places are moved, the team of one slot is set or cleared and those of the others stay.
-/

namespace Projectnelth.ArenaTeamModel.Player

/-- No two slots share a place, and a place with a team has a type. -/
structure Ok (p : Player) : Prop where
  /-- No two slots share a place. -/
  injective : Function.Injective p.arenaTeamInfoSlot
  typed : ∀ c, (p.info c).ARENA_TEAM_TYPE=0 ↔ (p.info c).ARENA_TEAM_ID=0

variable {p : Player} {slot other : Fin 3} {id type : ℕ}

theorem Ok.invited (h : p.Ok) (arenaTeamId : ℕ) : (p.SetArenaTeamIdInvited arenaTeamId).Ok :=
  ⟨h.injective,h.typed⟩

theorem Ok.freePlace (h : p.Ok) (hslot : p.GetArenaTeamId slot=0) :
    ∃ c, p.freePlace=some c ∧ (p.info c).ARENA_TEAM_ID=0 := by
  have htype := (h.typed (p.arenaTeamInfoSlot slot)).mpr hslot
  cases hc : p.freePlace with
  | none =>
    have hall := List.find?_eq_none.mp hc (p.arenaTeamInfoSlot slot)
      ((by decide : ∀ c : Fin 3, c∈([0,1,2] : List (Fin 3))) _)
    exact absurd (decide_eq_true htype) hall
  | some c =>
    have htyped := List.find?_some (p := fun c => decide ((p.info c).ARENA_TEAM_TYPE=0)) hc
    exact ⟨c,rfl,(h.typed c).mp (of_decide_eq_true htyped)⟩

theorem Ok.setInArenaTeam (h : p.Ok) (hslot : p.GetArenaTeamId slot=0) (hid : id≠0)
    (htype : type≠0) :
    (p.SetInArenaTeam id slot type).Ok ∧
      ∀ other, (p.SetInArenaTeam id slot type).GetArenaTeamId other=
        if other=slot then id else p.GetArenaTeamId other := by
  obtain ⟨c,hc,hfree⟩ := h.freePlace hslot
  unfold SetInArenaTeam
  rw [hc]
  refine ⟨⟨fun s t hst => ?_,fun d => ?_⟩,fun other => ?_⟩
  · have hinj : ∀ s t, p.arenaTeamInfoSlot s=p.arenaTeamInfoSlot t → s=t :=
      fun s t => @h.injective s t
    dsimp only at hst
    split_ifs at hst with h1 h2 h3 h4 h5 h6
    · exact h1.trans h2.symm
    · exact absurd (hinj t slot (h3.trans hst)) h2
    · exact absurd hst.symm h3
    · exact absurd (hinj s slot (h4.trans hst.symm)) h1
    · exact hinj s t (h4.trans h6.symm)
    · exact absurd (hinj slot t hst).symm h5
    · exact absurd hst h4
    · exact absurd (hinj s slot hst) h1
    · exact hinj s t hst
  · dsimp only
    by_cases hd : d=c
    · rw [hd,Function.update_self]
      exact ⟨fun h0 => absurd h0 htype,fun h0 => absurd h0 hid⟩
    · rw [Function.update_of_ne hd]
      exact h.typed d
  · unfold GetArenaTeamId
    dsimp only
    by_cases ho : other=slot
    · rw [if_pos ho,if_pos ho,Function.update_self]
    rw [if_neg ho,if_neg ho]
    by_cases hplace : p.arenaTeamInfoSlot other=c
    · have hne : p.arenaTeamInfoSlot slot≠c := fun heq =>
        ho (h.injective (hplace.trans heq.symm))
      rw [if_pos hplace,Function.update_of_ne hne,hplace,hfree]
      exact hslot
    · rw [if_neg hplace,Function.update_of_ne hplace]

/-- Whether he is the captain does not matter to his teams. -/
theorem Ok.setMember (h : p.Ok) (value : ℕ) :
    (p.SetMember slot value).Ok ∧
      ∀ other, (p.SetMember slot value).GetArenaTeamId other=p.GetArenaTeamId other := by
  unfold SetMember
  refine ⟨⟨h.injective,fun d => ?_⟩,fun other => ?_⟩
  · dsimp only
    by_cases hd : d=p.arenaTeamInfoSlot slot
    · rw [hd,Function.update_self]
      exact h.typed _
    · rw [Function.update_of_ne hd]
      exact h.typed d
  · unfold GetArenaTeamId
    dsimp only
    by_cases hd : p.arenaTeamInfoSlot other=p.arenaTeamInfoSlot slot
    · rw [hd,Function.update_self]
    · rw [Function.update_of_ne hd]

/-- The places from one on but the last moved up. -/
theorem moveUp_eq (info : Fin 3 → Info) (first c : Fin 3) (hc : c≠2) :
    moveUp info first c=if first ≤ c then info (c+1) else info c := by
  have hfirst := (by decide : ∀ d : Fin 3, d=0 ∨ d=1 ∨ d=2) first
  have hc' := (by decide : ∀ d : Fin 3, d≠2 → d=0 ∨ d=1) c hc
  rcases hfirst with rfl | rfl | rfl <;> rcases hc' with rfl | rfl <;> rfl

/-- The place of a slot after those behind another moved up. -/
theorem place_moved : ∀ m a : Fin 3, m≠2 → a≠m →
    (if m < a then a-1 else a)≠2 ∧
    (m ≤ (if m < a then a-1 else a) ↔ m < a) ∧
    (m < a → (a-1)+1=a) := by
  decide

/-- Different places stay different when those behind another move up. -/
theorem places_apart : ∀ m a b : Fin 3, a≠m → b≠m →
    (if m < a then a-1 else a)=(if m < b then b-1 else b) → a=b := by
  decide

theorem Ok.deleteArenaTeam (h : p.Ok) :
    (p.DeleteArenaTeam slot).Ok ∧
      ∀ other, (p.DeleteArenaTeam slot).GetArenaTeamId other=
        if other=slot then 0 else p.GetArenaTeamId other := by
  have hplace : ∀ other, other≠slot → p.arenaTeamInfoSlot other≠p.arenaTeamInfoSlot slot :=
    fun other hne heq => hne (h.injective heq)
  unfold DeleteArenaTeam
  by_cases hlast : p.arenaTeamInfoSlot slot=2
  · rw [if_pos hlast]
    refine ⟨⟨h.injective,fun d => ?_⟩,fun other => ?_⟩
    · dsimp only
      by_cases hd : d=2
      · rw [hd,Function.update_self]
        exact Iff.rfl
      · rw [Function.update_of_ne hd]
        exact h.typed d
    · unfold GetArenaTeamId
      dsimp only
      by_cases ho : other=slot
      · rw [if_pos ho,ho,hlast,Function.update_self]
        rfl
      · rw [if_neg ho,Function.update_of_ne (hlast ▸ hplace other ho)]
  · rw [if_neg hlast]
    refine ⟨⟨fun s t hst => ?_,fun d => ?_⟩,fun other => ?_⟩
    · dsimp only at hst
      by_cases hs : s=slot
      · by_cases ht : t=slot
        · exact hs.trans ht.symm
        · rw [if_pos hs,if_neg ht] at hst
          exact absurd hst.symm (place_moved _ _ hlast (hplace t ht)).1
      · by_cases ht : t=slot
        · rw [if_neg hs,if_pos ht] at hst
          exact absurd hst (place_moved _ _ hlast (hplace s hs)).1
        · rw [if_neg hs,if_neg ht] at hst
          exact h.injective (places_apart _ _ _ (hplace s hs) (hplace t ht) hst)
    · dsimp only
      by_cases hd : d=2
      · rw [hd,Function.update_self]
        exact Iff.rfl
      rw [Function.update_of_ne hd,moveUp_eq _ _ _ hd]
      split_ifs
      · exact h.typed (d+1)
      · exact h.typed d
    · unfold GetArenaTeamId
      dsimp only
      by_cases ho : other=slot
      · rw [if_pos ho,if_pos ho,Function.update_self]
        rfl
      obtain ⟨hne,hle,hback⟩ := place_moved _ _ hlast (hplace other ho)
      rw [if_neg ho,if_neg ho,Function.update_of_ne hne,moveUp_eq _ _ _ hne]
      by_cases hlt : p.arenaTeamInfoSlot slot < p.arenaTeamInfoSlot other
      · rw [if_pos (hle.mpr hlt),if_pos hlt,hback hlt]
      · rw [if_neg (fun hl => hlt (hle.mp hl)),if_neg hlt]

end Projectnelth.ArenaTeamModel.Player
