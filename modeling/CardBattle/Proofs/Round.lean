import CardBattle.Proofs.Quiet
import CardBattle.Proofs.Telegraph

/-!
# CardBattle.Proofs.Round

The stations of a round. The player's turn ends, the enemies act and rest, the next turn begins and
cards are dealt, and at last the hits that are due land. Up to then nothing is queued and nothing
leaves the queue.

* `Battle.rested`, `Battle.fought`, `Battle.supplied`: the stations.
* `Battle.endPlayerTurn_cases`: how a round ends.
* `Battle.enemyActs_spares`: an enemy that acts does not age the buffs of others.
-/

namespace CardBattle
namespace Battle

open Relation

variable {b : Battle} {id : FighterId}

/-- The state in which the player's turn has ended. -/
def rested (b : Battle) : Battle := (b.endBuffs .player).discardHand

/-- The state in which the enemy turn has ended. -/
def fought (b : Battle) : Battle := (b.rested.setPhase .enemyTurn).runEnemyTurn

theorem fought_eq (b : Battle) : b.fought = (b.rested.setPhase .enemyTurn).runEnemyTurn := rfl

/-- The state in which the buffs of the player have seen a new turn. -/
def awoken (b : Battle) : Nat × Battle := b.turnBegun.resetActionPoints.startBuffs .player

/-- The state in which a new turn has begun and all cards are dealt. -/
def supplied (b : Battle) : Battle :=
  let (gifts, b) := b.awoken
  let b := if gifts = 0 then b else b.grantCards gifts
  b.drawCards b.settings.handSize

theorem beginPlayerTurn_eq (b : Battle) :
    b.beginPlayerTurn = b.supplied.fireDelayed.checkEnd.2 := rfl

/-! ## The enemy turn -/

theorem startBuffs_keepsQueue (id : FighterId) (b : Battle) : b.KeepsQueue (b.startBuffs id).2 := by
  simp only [startBuffs]
  split
  · exact .refl b
  · exact keepsQueue_change (.settle .turnStart)

theorem enemyActs_keepsQueue (i : Nat) (b : Battle) : b.KeepsQueue (b.enemyActs (.enemy i)) := by
  have started := startBuffs_keepsQueue (.enemy i) b
  simp only [enemyActs]
  split
  · split
    · rename_i alive
      exact started.trans (performIntent_quiet (FighterId.enemy_ne_player i) _ alive).queue
    · exact started
  · exact .refl b

/-- The buffs of an enemy see a new turn when it acts, and those of all others do not. -/
theorem enemyActs_spares {i : Nat} (other : id ≠ .enemy i) (b : Battle) :
    Ebbs Ledger.Stays id b (b.enemyActs (.enemy i)) := by
  have started : Ebbs Ledger.Stays id b (b.startBuffs (.enemy i)).2 :=
    ebbs_same (fighter?_startBuffs b other)
  simp only [enemyActs]
  split
  · split
    · rename_i alive
      exact started.still ((performIntent_quiet (FighterId.enemy_ne_player i) _ alive).ledgers id)
    · exact started
  · exact ebbs_same rfl

/-- By induction on the enemies that are still to act. -/
theorem enemiesAct_keepsQueue {ids : List FighterId} (enemies : ∀ id ∈ ids, ∃ i, id = .enemy i)
    (b : Battle) : b.KeepsQueue (enemiesAct ids b) := by
  induction ids generalizing b with
  | nil => exact .refl b
  | cons id ids ih =>
    rw [List.forall_mem_cons] at enemies
    obtain ⟨⟨i, rfl⟩, others⟩ := enemies
    have first := enemyActs_keepsQueue i b
    simp only [enemiesAct]
    split
    · exact first.trans (ih others _)
    · exact first

theorem enemiesAct_spares {ids : List FighterId} (enemies : ∀ id ∈ ids, ∃ i, id = .enemy i)
    (absent : id ∉ ids) (b : Battle) : Ebbs Ledger.Stays id b (enemiesAct ids b) := by
  induction ids generalizing b with
  | nil => exact ebbs_same rfl
  | cons j ids ih =>
    rw [List.forall_mem_cons] at enemies
    obtain ⟨⟨i, rfl⟩, others⟩ := enemies
    rw [List.mem_cons, not_or] at absent
    have first := enemyActs_spares absent.1 b
    simp only [enemiesAct]
    split
    · exact first.still (ih others absent.2 _)
    · exact first

theorem enemiesRest_quiet (ids : List FighterId) (b : Battle) :
    b.Quiet (ids.foldl enemyRests b) :=
  quiet_foldl enemyRests_quiet ids b

theorem runEnemyTurn_keepsQueue (named : b.Named) : b.KeepsQueue b.runEnemyTurn := by
  have acted : b.KeepsQueue (enemiesAct b.living b) :=
    enemiesAct_keepsQueue (fun _ h => (named.of_mem_living h).1) b
  simp only [runEnemyTurn]
  split
  · exact acted.trans (enemiesRest_quiet _ _).queue
  · exact acted

/-! ## Before and after the enemy turn -/

theorem rested_quiet (b : Battle) : b.Quiet b.rested :=
  (endBuffs_quiet .player b).trans (discardHand_quiet _)

theorem rested_steps (b : Battle) : Steps b (b.rested.setPhase .enemyTurn) := by
  have rested : Stages b b.rested := (endBuffs_moves .player b).stages.tail (discardHand_stage _)
  exact rested.steps.tail (.stage .enemyTurn)

theorem rested_calm (b : Battle) : b.Calm b.rested :=
  (endBuffs_moves .player b).calm.trans (calm_discardHand _)

theorem phase_rested (h : b.phase = .playerTurn) : b.rested.phase = .playerTurn :=
  (rested_calm b).phase.trans h

theorem fought_steps (b : Battle) : Steps b b.fought := by
  rw [fought_eq]
  exact (rested_steps b).trans (runEnemyTurn_moves _).stages.steps

theorem phase_fought (b : Battle) : b.fought.phase = .enemyTurn := by
  rw [fought_eq, (runEnemyTurn_moves _).calm.phase]
  rfl

theorem fought_advances (b : Battle) : Advances 0 b b.fought := by
  rw [fought_eq]
  exact ((rested_calm b).advances.trans (setPhase_advances _ _)).trans
    (runEnemyTurn_moves _).calm.advances

theorem fought_keepsQueue (named : b.Named) : b.KeepsQueue b.fought :=
  ((rested_quiet b).trans (setPhase_quiet .enemyTurn _)).queue.trans
    (runEnemyTurn_keepsQueue (Steps.named (rested_steps b) named))

/-- What is granted and drawn leaves the buffs alone. -/
theorem awoken_supplies (b : Battle) : b.awoken.2.Quiet b.supplied := by
  have granted : b.awoken.2.Quiet
      (if b.awoken.1 = 0 then b.awoken.2 else b.awoken.2.grantCards b.awoken.1) := by
    split
    · exact .refl _
    · exact grantCards_quiet _ _
  exact granted.trans (drawCards_quiet _ _)

theorem turn_begins_quiet (b : Battle) : b.Quiet b.turnBegun.resetActionPoints :=
  (turnBegun_quiet b).trans (budget_quiet .reset)

theorem supplied_keepsQueue (b : Battle) : b.KeepsQueue b.supplied :=
  ((turn_begins_quiet b).queue.trans (startBuffs_keepsQueue .player _)).trans
    (awoken_supplies b).queue

/-- What happens between the stage of the new turn and its delayed hits. -/
theorem supplied_moves (b : Battle) : Moves b.turnBegun b.supplied := by
  have reset : Moves b.turnBegun b.turnBegun.resetActionPoints := .single (.points .reset)
  have hooked := reset.trans (startBuffs_deeds .player _).moves
  have granted : Moves b.awoken.2
      (if b.awoken.1 = 0 then b.awoken.2 else b.awoken.2.grantCards b.awoken.1) := by
    split
    · exact .refl
    · exact .single (grantCards_move _ _)
  exact (hooked.trans granted).trans (.single (drawCards_deed _ _).move)

theorem supplied_steps (b : Battle) : Steps b b.supplied :=
  (supplied_moves b).stages.steps.head (.stage .playerTurn)

/-- How the end of a turn ends: one side has fallen in the player's turn, or in the enemy turn, or
the next turn begins. -/
theorem endPlayerTurn_cases (h : b.phase = .playerTurn) :
    (∃ o, b.rested.decided? = some o ∧ b.endPlayerTurn = b.rested.ended o) ∨
      (∃ o, b.fought.decided? = some o ∧ b.endPlayerTurn = b.fought.ended o) ∨
      b.rested.decided? = none ∧ b.fought.decided? = none ∧
        b.endPlayerTurn = b.fought.beginPlayerTurn := by
  have rests : (b.endBuffs .player).discardHand = b.rested := rfl
  have fights : (b.rested.setPhase .enemyTurn).runEnemyTurn = b.fought := rfl
  obtain ⟨contested, eq⟩ | ⟨o, decided, eq⟩ :=
    checkEnd_cases (b := b.rested) (by simp [phase_rested h])
  · obtain ⟨contested', eq'⟩ | ⟨o, decided, eq'⟩ :=
      checkEnd_cases (b := b.fought) (by simp [phase_fought])
    · refine .inr (.inr ⟨contested, contested', ?_⟩)
      simp only [endPlayerTurn, rests, eq, fights, eq']
    · refine .inr (.inl ⟨o, decided, ?_⟩)
      simp only [endPlayerTurn, rests, eq, fights, eq']
  · refine .inl ⟨o, decided, ?_⟩
    simp only [endPlayerTurn, rests, eq]

/-- Only a contested round leads to another player turn. -/
theorem next_of_endPlayerTurn (h : b.phase = .playerTurn)
    (next : b.endPlayerTurn.phase = .playerTurn) :
    b.fought.decided? = none ∧ b.endPlayerTurn = b.fought.beginPlayerTurn := by
  obtain ⟨o, _, eq⟩ | ⟨o, _, eq⟩ | ⟨_, contested, eq⟩ := endPlayerTurn_cases h
  · rw [eq] at next
    cases next
  · rw [eq] at next
    cases next
  · exact ⟨contested, eq⟩

end Battle
end CardBattle
