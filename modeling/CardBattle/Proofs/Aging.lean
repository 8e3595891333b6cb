import CardBattle.Proofs.Round

/-!
# CardBattle.Proofs.Aging

Buffs age by one turn per round. In a round each ledger passes one turn start, the player's at the
begin of the new turn and an enemy's before it acts, and everything else that happens to it in the
round only takes entries out. No skill puts a buff on anyone.

* `Ledger.Ages`, `Ledger.Aged`: an entry and a ledger one round later.
* `Battle.startBuffs_ages`: a turn start, the only place where entries age.
* `Battle.enemiesAct_ages`: each enemy that lives passes one, by induction on who is still to act.
* `Session.aged_run`: a round of a started battle.
-/

namespace CardBattle

namespace Ledger

/-- An entry one round later: a permanent one stays, any other has one turn less and at least one
left. Fear may remember something else. -/
structure Ages (b c : Buff) : Prop where
  kind : c.kind = b.kind
  stack : c.stack = b.stack
  data : c.data.bare = b.data.bare
  duration : b.duration < 0 ∧ c.duration = b.duration ∨
    0 < c.duration ∧ c.duration = b.duration - 1

theorem kind_eq_of_bare {b c : Buff} (h : c.data.bare = b.data.bare) : c.kind = b.kind := by
  have seen : ∀ d : BuffData, d.bare.kind = d.kind := by
    intro d
    cases d <;> rfl
  rw [Buff.kind, Buff.kind, ← seen c.data, ← seen b.data, h]

theorem Stays.ages {a b c : Buff} (h : Stays a b) (h' : Ages b c) : Ages a c := by
  have data := h'.data.trans h.data
  exact ⟨kind_eq_of_bare data, h'.stack.trans h.stack, data, h.duration ▸ h'.duration⟩

theorem Ages.stays {a b c : Buff} (h : Ages a b) (h' : Stays b c) : Ages a c := by
  have data := h'.data.trans h.data
  exact ⟨kind_eq_of_bare data, h'.stack.trans h.stack, data, h'.duration ▸ h.duration⟩

theorem duration_turnStarted {b : Buff} (awake : b.isActive = true) :
    (turnStarted b).duration = if 0 < b.duration then b.duration - 1 else b.duration := by
  simp only [turnStarted, awake, if_true]

theorem bare_turnStarted (b : Buff) : (turnStarted b).data.bare = b.data.bare := by
  obtain ⟨d, n, t⟩ := b
  simp only [turnStarted]
  split
  · cases d <;> rfl
  · rfl

/-- What is still active after a turn start has aged. -/
theorem ages_turnStarted {b : Buff} (active : (turnStarted b).isActive = true) :
    Ages b (turnStarted b) := by
  obtain ⟨kind, stack⟩ := Prod.mk.inj (face_turnStarted b)
  refine ⟨kind, stack, bare_turnStarted b, ?_⟩
  by_cases inert : b.duration = 0
  · simp [turnStarted, Buff.isActive, inert] at active
  · have awake : b.isActive = true := by simp [Buff.isActive, inert]
    have left : (turnStarted b).duration ≠ 0 := by simpa [Buff.isActive] using active
    rw [duration_turnStarted awake] at left ⊢
    split at left <;> omega

theorem remains_turnStart (l : Ledger) : l.Remains Ages l.turnStart.2.2 := by
  refine ⟨l.entries.filter fun b => (turnStarted b).isActive, List.filter_sublist, ?_⟩
  have entries : l.turnStart.2.2.entries =
      (l.entries.filter fun b => (turnStarted b).isActive).map turnStarted := by
    simp only [turnStart, prune, List.filter_map]
    rfl
  rw [entries, List.forall₂_map_right_iff]
  exact List.forall₂_same.mpr fun b hb => ages_turnStarted (List.mem_filter.mp hb).2

/-- A ledger one round later. -/
structure Aged (l l' : Ledger) : Prop where
  remains : l.Remains Ages l'
  gone : ∀ b ∈ l.entries, b.duration = 0 ∨ b.duration = 1 → b.kind ∉ l'.kinds

/-- What cannot age is gone, for no other entry has its kind. -/
theorem Remains.aged {l l' : Ledger} (h : l.Remains Ages l') (distinct : l.Distinct) :
    l.Aged l' := by
  refine ⟨h, fun b hb last there => ?_⟩
  obtain ⟨kept, within, aged⟩ := h
  obtain ⟨c, hc, same⟩ := List.mem_map.mp there
  obtain ⟨i, hi⟩ := List.mem_iff_getElem?.mp hc
  obtain ⟨later, atEnd⟩ := List.getElem?_eq_some_iff.mp hi
  have early : i < kept.length := aged.length_eq ▸ later
  have ages := aged.get early later
  simp only [List.get_eq_getElem, atEnd] at ages
  have own : kept[i] = b := List.inj_on_of_nodup_map distinct
    (within.subset (List.getElem_mem early)) hb (ages.kind.symm.trans same)
  have duration := ages.duration
  rw [own] at duration
  omega

end Ledger

namespace Battle

open Relation

variable {b b₁ b' : Battle} {id : FighterId}

theorem Ebbs.ages (h : Ebbs Ledger.Stays id b b₁) (h' : Ebbs Ledger.Ages id b₁ b') :
    Ebbs Ledger.Ages id b b' :=
  h.trans (fun _ _ _ first second => first.ages second) h'

theorem Ebbs.aged (h : Ebbs Ledger.Ages id b b₁) (h' : Ebbs Ledger.Stays id b₁ b') :
    Ebbs Ledger.Ages id b b' :=
  h.trans (fun _ _ _ first second => first.stays second) h'

/-! ## Turn starts -/

theorem startBuffs_ages (id : FighterId) (b : Battle) :
    Ebbs Ledger.Ages id b (b.startBuffs id).2 := by
  intro f hf
  have aged : f.buffs.Remains Ledger.Ages
      ({ f with buffs := f.buffs.turnStart.2.2 } : Fighter).buffs := f.buffs.remains_turnStart
  simp only [startBuffs, hf]
  exact ebbs_change (f.buffs.turnStart.2.1.map (.buffExpired id)) hf aged f hf

/-- An enemy that is alive passes a turn start, and then its skill only takes entries out. -/
theorem enemyActs_ages {i : Nat} (alive : b.isAlive (.enemy i) = true) :
    Ebbs Ledger.Ages (.enemy i) b (b.enemyActs (.enemy i)) := by
  have started := startBuffs_ages (.enemy i) b
  simp only [enemyActs, alive, if_true]
  split
  · rename_i alive'
    exact started.aged ((performIntent_quiet (FighterId.enemy_ne_player i) _ alive').ledgers _)
  · exact started

/-- The living have been alive before. -/
theorem isAlive_of_steps (steps : Steps b b') (sound : b.Sound)
    (alive : b'.isAlive id = true) : b.isAlive id = true := by
  obtain ⟨es, _, fates⟩ := steps.fates sound
  by_contra dead
  rw [(fates.dead id (by simpa using dead)).1] at alive
  cases alive

/-- By induction on the enemies that are still to act: each of them acts once, if the player
stands to the end. -/
theorem enemiesAct_ages {ids : List FighterId} {i : Nat} (sound : b.Sound)
    (enemies : ∀ id ∈ ids, ∃ i, id = .enemy i) (nodup : ids.Nodup) (acts : .enemy i ∈ ids)
    (alive : (enemiesAct ids b).isAlive (.enemy i) = true)
    (player : (enemiesAct ids b).player.fighter.isAlive = true) :
    Ebbs Ledger.Ages (.enemy i) b (enemiesAct ids b) := by
  induction ids generalizing b with
  | nil => cases acts
  | cons id ids ih =>
    have before := isAlive_of_steps (enemiesAct_moves (id :: ids) b).stages.steps sound alive
    rw [List.forall_mem_cons] at enemies
    obtain ⟨⟨j, rfl⟩, others⟩ := enemies
    rw [List.nodup_cons] at nodup
    have sound' : (b.enemyActs (.enemy j)).Sound :=
      Steps.sound (enemyActs_moves (.enemy j) b).stages.steps sound
    simp only [enemiesAct] at alive player ⊢
    split at player
    · rename_i stands
      rw [if_pos stands] at alive ⊢
      by_cases first : FighterId.enemy i = .enemy j
      · rw [first] at before ⊢
        exact (enemyActs_ages before).aged (enemiesAct_spares others nodup.1 _)
      · have later : .enemy i ∈ ids := (List.mem_cons.mp acts).resolve_left first
        exact (enemyActs_spares first b).ages (ih sound' others nodup.2 later alive player)
    · rename_i falls
      exact absurd player falls

/-! ## A round -/

/-- In the enemy turn the buffs of the player stay, and those of the living enemies age. -/
theorem runEnemyTurn_ages (named : b.Named) (sound : b.Sound)
    (player : b.runEnemyTurn.player.fighter.isAlive = true) :
    Ebbs Ledger.Stays .player b b.runEnemyTurn ∧
      ∀ i, b.runEnemyTurn.isAlive (.enemy i) = true →
        Ebbs Ledger.Ages (.enemy i) b b.runEnemyTurn := by
  have enemies : ∀ id ∈ b.living, ∃ i, id = .enemy i := fun _ h => (named.of_mem_living h).1
  have outside : .player ∉ b.living := fun there => by
    obtain ⟨i, eq⟩ := enemies _ there
    cases eq
  have acted : Steps b (enemiesAct b.living b) := (enemiesAct_moves _ _).stages.steps
  simp only [runEnemyTurn] at player ⊢
  split at player
  · rename_i stands
    have rests := enemiesRest_quiet (enemiesAct b.living b).living (enemiesAct b.living b)
    have rested : Steps (enemiesAct b.living b)
        ((enemiesAct b.living b).living.foldl enemyRests (enemiesAct b.living b)) := by
      have moves : Moves _ _ :=
        foldl_chain enemyRests_moves (enemiesAct b.living b).living (enemiesAct b.living b)
      exact moves.stages.steps
    rw [if_pos stands]
    refine ⟨(enemiesAct_spares enemies outside b).still (rests.ledgers _), fun i alive => ?_⟩
    have alive' := isAlive_of_steps rested (Steps.sound acted sound) alive
    have here := named.mem_living (isAlive_of_steps acted sound alive')
    exact (enemiesAct_ages sound enemies named.nodup_living here alive' stands).aged
      (rests.ledgers _)
  · rename_i falls
    exact absurd player falls

/-- Landing hits only take entries out. -/
theorem fireDelayed_stays (id : FighterId) (b : Battle) :
    Ebbs Ledger.Stays id b b.fireDelayed.checkEnd.2 := by
  have ticked : Ebbs Ledger.Stays id b { b with delayed := b.delayed.tick.2 } :=
    ebbs_same (fighter?_congr rfl rfl id)
  have landed := landAll_quiet b.delayed.tick.1 { b with delayed := b.delayed.tick.2 }
  exact ticked.still ((landed.trans (checkEnd_quiet b.fireDelayed)).ledgers id)

/-- At the begin of a turn the buffs of the player age, and those of the enemies stay. -/
theorem beginPlayerTurn_ages (b : Battle) :
    Ebbs Ledger.Ages .player b b.beginPlayerTurn ∧
      ∀ i, Ebbs Ledger.Stays (.enemy i) b b.beginPlayerTurn := by
  have begun := turn_begins_quiet b
  have supplied := awoken_supplies b
  rw [beginPlayerTurn_eq]
  constructor
  · have awoken := startBuffs_ages .player b.turnBegun.resetActionPoints
    exact (((begun.ledgers _).ages awoken).aged (supplied.ledgers _)).aged (fireDelayed_stays _ _)
  · intro i
    have awoken : Ebbs Ledger.Stays (.enemy i) b.turnBegun.resetActionPoints b.awoken.2 :=
      ebbs_same (fighter?_startBuffs _ (FighterId.enemy_ne_player i))
    exact (((begun.ledgers _).still awoken).still (supplied.ledgers _)).still
      (fireDelayed_stays _ _)

/-- The ledgers of the player and of the enemies still alive, one round later. -/
def Aged (b b' : Battle) : Prop :=
  ∀ id f, b.fighter? id = some f →
    ∃ f', b'.fighter? id = some f' ∧ (id = .player ∨ f'.isAlive = true → f.buffs.Aged f'.buffs)

theorem isAlive_of_contested {b : Battle} (contested : b.decided? = none) :
    b.player.fighter.isAlive = true := by
  have spec := b.decided?_spec
  rw [contested] at spec
  exact Fighter.isAlive_iff.mpr spec.1

theorem aged_endPlayerTurn (named : b.Named) (sound : b.Sound) (phase : b.phase = .playerTurn)
    (next : b.endPlayerTurn.phase = .playerTurn) : b.Aged b.endPlayerTurn := by
  obtain ⟨contested, eq⟩ := next_of_endPlayerTurn phase next
  have player := isAlive_of_contested contested
  have before := (rested_quiet b).trans (setPhase_quiet .enemyTurn b.rested)
  have ran := runEnemyTurn_ages (Steps.named (rested_steps b) named)
    (Steps.sound (rested_steps b) sound)
  rw [← fought_eq] at ran
  obtain ⟨spared, fought⟩ := ran player
  obtain ⟨awoken, passed⟩ := beginPlayerTurn_ages b.fought
  intro id f hf
  rw [eq]
  cases id with
  | player =>
    have ages : Ebbs Ledger.Ages .player b b.fought.beginPlayerTurn :=
      ((before.ledgers _).still spared).ages awoken
    obtain ⟨f', hf', remains⟩ := ages f hf
    exact ⟨f', hf', fun _ => remains.aged (sound _ f hf).distinct⟩
  | enemy i =>
    have later : Steps b b.fought.beginPlayerTurn :=
      (fought_steps b).trans (beginPlayerTurn_stages b.fought).steps
    by_cases alive : b.fought.beginPlayerTurn.isAlive (.enemy i) = true
    · have alive' := isAlive_of_steps (beginPlayerTurn_stages b.fought).steps
        (Steps.sound (fought_steps b) sound) alive
      have ages : Ebbs Ledger.Ages (.enemy i) b b.fought.beginPlayerTurn :=
        ((before.ledgers _).ages (fought i alive')).aged (passed i)
      obtain ⟨f', hf', remains⟩ := ages f hf
      exact ⟨f', hf', fun _ => remains.aged (sound _ f hf).distinct⟩
    · obtain ⟨_, _, fates⟩ := later.fates sound
      have there := fates.present (.enemy i)
      rw [hf, Option.isSome_some] at there
      obtain ⟨f', hf'⟩ := Option.isSome_iff_exists.mp there
      refine ⟨f', hf', fun living => absurd ?_ alive⟩
      rw [isAlive_eq hf']
      exact living.resolve_left nofun

end Battle

namespace Session

/-- Whenever the end of a turn leads to the next turn of a started battle, the buffs of the player
and of the enemies still alive are one round older. -/
theorem aged_run {c : Catalog} {settings : Settings} {seed : UInt64} {deck : List String}
    {foes : List Foe} {b : Battle} (h : Battle.start c settings seed deck foes = .ok b)
    (calls : List Call) {b' : Battle}
    (ended : (run { battle := b } calls).battle.endTurn = .ok b')
    (next : b'.phase = .playerTurn) : (run { battle := b } calls).battle.Aged b' := by
  obtain ⟨phase, eq⟩ := Battle.endTurn_eq_ok ended
  rw [eq] at next ⊢
  exact Battle.aged_endPlayerTurn (named_run h calls) (sound_run h calls) phase next

/-- A battle of the sample content: a slime is rent, and the next turn begins. -/
theorem exists_round :
    ∃ b b', Battle.start Sample.catalog Sample.settings 1 ["rend"] [{ monsterId := "slime" }] =
        .ok b ∧
      (run { battle := b } [.play 0 (some (.enemy 0))]).battle.endTurn = .ok b' ∧
      b'.phase = .playerTurn ∧
      ((run { battle := b } [.play 0 (some (.enemy 0))]).battle.fighter? (.enemy 0)).map
        (fun f => f.buffs.entries) = some [⟨.bleeding (.finite 5), 2, 3⟩] ∧
      (b'.fighter? (.enemy 0)).map (fun f => f.buffs.entries) =
        some [⟨.bleeding (.finite 5), 2, 2⟩] := by
  have started : ∃ b, Battle.start Sample.catalog Sample.settings 1 ["rend"]
      [{ monsterId := "slime" }] = .ok b :=
    Battle.exists_start _ _ nofun nofun rfl rfl
  obtain ⟨b, h⟩ := started
  have round : (Battle.start Sample.catalog Sample.settings 1 ["rend"]
      [{ monsterId := "slime" }]).toOption.bind (fun b =>
        let s := run { battle := b } [.play 0 (some (.enemy 0))]
        s.battle.endTurn.toOption.map fun b' =>
          (b'.phase, (s.battle.fighter? (.enemy 0)).map fun f => f.buffs.entries,
            (b'.fighter? (.enemy 0)).map fun f => f.buffs.entries)) =
      some (.playerTurn, some [⟨.bleeding (.finite 5), 2, 3⟩],
        some [⟨.bleeding (.finite 5), 2, 2⟩]) := by
    decide +kernel
  rw [h] at round
  obtain ⟨b', ended, seen⟩ := Option.map_eq_some_iff.mp round
  obtain ⟨phase, before, after⟩ := Prod.mk.inj seen |>.imp_right Prod.mk.inj
  refine ⟨b, b', h, ?_, phase, before, after⟩
  cases call : (run { battle := b } [.play 0 (some (.enemy 0))]).battle.endTurn with
  | error e => rw [call] at ended; cases ended
  | ok _ =>
    rw [call] at ended
    cases ended
    rfl

/-- The bleeding of the slime has one turn less. -/
theorem aged_rend :
    ∃ b b', Battle.start Sample.catalog Sample.settings 1 ["rend"] [{ monsterId := "slime" }] =
        .ok b ∧
      (run { battle := b } [.play 0 (some (.enemy 0))]).battle.endTurn = .ok b' ∧
      b'.phase = .playerTurn ∧
      ((run { battle := b } [.play 0 (some (.enemy 0))]).battle.fighter? (.enemy 0)).map
        (fun f => f.buffs.entries) = some [⟨.bleeding (.finite 5), 2, 3⟩] ∧
      (b'.fighter? (.enemy 0)).map (fun f => f.buffs.entries) =
        some [⟨.bleeding (.finite 5), 2, 2⟩] ∧
      (run { battle := b } [.play 0 (some (.enemy 0))]).battle.Aged b' := by
  obtain ⟨b, b', h, ended, next, before, after⟩ := exists_round
  exact ⟨b, b', h, ended, next, before, after, aged_run h _ ended next⟩

end Session
end CardBattle
