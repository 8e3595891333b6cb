import CardBattle.Proofs.Passages

/-!
# CardBattle.Proofs.Hooks

The turn order, as far as it runs the hooks of the fighters: which of them run, one after the other,
and the state that each of them finds. The player's turn start runs when a player turn begins, and
its turn end when the player ends the turn. Then the turn starts of the enemies run as they act, and
their turn ends once all have acted.

* `Battle.actHooks`, `Battle.restHooks`, `Battle.enemyHooks`: the hooks of an enemy turn.
* `Battle.dawnHooks`, `Battle.roundHooks`: the begin of a player turn, and a whole round.
* `Session.hooks`: the hooks of a sequence of calls.
* `Session.exists_chronicle`: the passages of a started battle, with all its hooks.
-/

namespace CardBattle
namespace Battle

/-! ## The hooks -/

/-- The turn start of an enemy, if it still lives when it is to act. -/
def actHook (id : FighterId) (b : Battle) : List (Hook × Battle) :=
  if b.isAlive id then [(.turnStart id, b)] else []

/-- The turn starts of the enemies that act, until the player falls. -/
def actHooks : List FighterId → Battle → List (Hook × Battle)
  | [], _ => []
  | id :: ids, b =>
    actHook id b ++
      if (b.enemyActs id).player.fighter.isAlive then actHooks ids (b.enemyActs id) else []

/-- The turn ends of the enemies. -/
def restHooks : List FighterId → Battle → List (Hook × Battle)
  | [], _ => []
  | id :: ids, b => (.turnEnd id, b) :: restHooks ids (b.enemyRests id)

def enemyHooks (b : Battle) : List (Hook × Battle) :=
  let acted := b.enemiesAct b.living
  actHooks b.living b ++ if acted.player.fighter.isAlive then restHooks acted.living acted else []

/-- The begin of a player turn. -/
def dawnHooks (b : Battle) : List (Hook × Battle) :=
  [(.turnStart .player, b.turnBegun.resetActionPoints)]

/-- What the end of a player turn brings: the turn end of the player, the enemy turn, and the begin
of the next player turn, unless the battle ends before. -/
def roundHooks (b : Battle) : List (Hook × Battle) :=
  (.turnEnd .player, b) ::
    match b.rested.checkEnd with
    | (true, _) => []
    | (false, b) =>
      enemyHooks (b.setPhase .enemyTurn) ++
        match (b.setPhase .enemyTurn).runEnemyTurn.checkEnd with
        | (true, _) => []
        | (false, b) => b.dawnHooks

end Battle

namespace Session

/-- Only the end of a turn runs hooks, if it is accepted. -/
def callHooks (s : Session) : Call → List (Hook × Battle)
  | .play _ _ => []
  | .endTurn =>
    match s.battle.endTurn with
    | .error _ => []
    | .ok _ => s.battle.roundHooks
  | .drain => []

def hooks (s : Session) : List Call → List (Hook × Battle)
  | [] => []
  | c :: cs => s.callHooks c ++ (s.call c).hooks cs

end Session

namespace Battle

variable (b : Battle) (id : FighterId)

/-! ## Acting and choosing -/

theorem hookless_updateEnemy (g : Enemy → Enemy) (hg : ∀ e, (g e).fighter = e.fighter) :
    b.Hooked [] (b.updateEnemy id g) := by
  refine hookless_same (events_updateEnemy b id g) (fighter?_congr ?_ ?_)
  · rw [player_updateEnemy]
  · exact map_fighter_updateEnemy b id g hg

theorem performIntent_hookless : b.Hooked [] (b.performIntent id).2 := by
  simp only [performIntent]
  split
  · exact .refl b
  · rename_i e _
    split
    · split
      · exact .refl b
      · rename_i s _
        have counted : b.Hooked [] (b.updateEnemy id fun e => { e with casts := e.casts + 1 }) :=
          hookless_updateEnemy b id _ fun _ => rfl
        have told : b.Hooked []
            ((b.updateEnemy id fun e => { e with casts := e.casts + 1 }).emit
              (.skillUsed id s.skill.id)) :=
          counted.trans (hookless_emit (by simp [Event.topic]) _)
        exact told.trans (resolveSkill_hookless id s.skill e.monster.attack _)
    · exact .refl b

theorem chooseIntent_hookless : b.Hooked [] (b.chooseIntent id).2 := by
  have rolled : ∀ s : Chance.Stream, b.Hooked [] { b with chance := s } := by
    intro s
    exact hookless_same rfl (fighter?_congr rfl rfl)
  have chosen : ∀ (intent : Option String) (b : Battle),
      b.Hooked [] (b.updateEnemy id fun e => { e with intent }) := by
    intro intent b
    exact hookless_updateEnemy b id _ fun _ => rfl
  simp only [chooseIntent]
  split
  · exact rolled _
  · exact ((rolled _).trans (chosen _ _)).trans (hookless_emit (by simp [Event.topic]) _)

theorem refreshIntents_hookless : b.Hooked [] b.refreshIntents :=
  .foldl (fun b id => chooseIntent_hookless b id) b.living b

/-! ## Turn ends -/

theorem applyTick_hookless (t : Tick) : b.Hooked [] (applyTick id b t) := by
  cases t with
  | heal _ x => exact heal_hookless _ _ _
  | damage _ x => exact hurt_hookless _ _ _

theorem pruneBuffs_hookless : b.Hooked [] (b.pruneBuffs id) := by
  simp only [pruneBuffs]
  split
  · exact .refl b
  · rename_i f hf
    exact hookless_incident hf (.settle .idle)

/-- Once it is settled what the buffs do, it is done. -/
theorem endBuffs_hooked : b.Hooked [(.turnEnd id, b)] (b.endBuffs id) := by
  refine (turnEnd_hooked b id).still ?_
  simp only [endBuffs]
  split
  · exact .refl b
  · exact (Hooked.foldl (fun b t => applyTick_hookless b id t) _ b).trans (pruneBuffs_hookless _ id)

theorem enemyRests_hooked : b.Hooked [(.turnEnd id, b)] (b.enemyRests id) := by
  simp only [enemyRests]
  split
  · exact (endBuffs_hooked b id).still (chooseIntent_hookless _ id)
  · exact endBuffs_hooked b id

theorem enemiesRest_hooked (ids : List FighterId) :
    b.Hooked (restHooks ids b) (ids.foldl enemyRests b) := by
  induction ids generalizing b with
  | nil => exact .refl b
  | cons id ids ih => exact (enemyRests_hooked b id).append (ih _)

/-! ## The enemy turn -/

theorem exists_fighter_of_isAlive {b : Battle} {id : FighterId} (h : b.isAlive id = true) :
    ∃ f, b.fighter? id = some f := by
  simp only [isAlive] at h
  split at h
  · cases h
  · rename_i f hf
    exact ⟨f, hf⟩

theorem enemyActs_hooked : b.Hooked (actHook id b) (b.enemyActs id) := by
  simp only [enemyActs, actHook]
  split
  · rename_i alive
    obtain ⟨f, hf⟩ := exists_fighter_of_isAlive alive
    split
    · exact (turnStart_hooked hf).still (performIntent_hookless _ id)
    · exact turnStart_hooked hf
  · exact .refl b

/-- By induction on the enemies that are still to act. -/
theorem enemiesAct_hooked (ids : List FighterId) :
    b.Hooked (actHooks ids b) (enemiesAct ids b) := by
  induction ids generalizing b with
  | nil => exact .refl b
  | cons id ids ih =>
    have first := enemyActs_hooked b id
    simp only [enemiesAct, actHooks]
    split
    · exact first.append (ih _)
    · exact first.append (.refl _)

theorem runEnemyTurn_hooked : b.Hooked b.enemyHooks b.runEnemyTurn := by
  have acted := enemiesAct_hooked b b.living
  simp only [runEnemyTurn, enemyHooks]
  split
  · exact acted.append (enemiesRest_hooked _ _)
  · exact acted.append (.refl _)

/-! ## Rounds -/

theorem discardHand_hookless : b.Hooked [] b.discardHand := by
  have swept : b.Hooked [] (b.setPiles b.player.piles.discardHand.2 b.chance) :=
    hookless_same rfl (fighter?_congr rfl rfl)
  simp only [discardHand]
  split
  · exact swept
  · exact swept.trans (hookless_emit (by simp [Event.topic]) _)

theorem setPhase_hookless (phase : Phase) : b.Hooked [] (b.setPhase phase) :=
  hookless_aside [.phaseChanged phase] Array.toList_push (by simp [Event.topic])
    (fighter?_congr rfl rfl)

theorem checkEnd_hookless : b.Hooked [] b.checkEnd.2 := by
  simp only [checkEnd]
  split
  · exact .refl b
  · split
    · exact .refl b
    · rename_i o _
      exact hookless_aside _ (b.events_ended o) (by simp [Event.topic]) (fighter?_congr rfl rfl)

theorem awoken_hooked : b.Hooked b.dawnHooks b.awoken.2 := by
  have begun : b.Hooked [] b.turnBegun :=
    hookless_aside _ b.events_turnBegun (by simp [Event.topic]) (fighter?_congr rfl rfl)
  have there : b.turnBegun.resetActionPoints.fighter? .player =
      some b.turnBegun.resetActionPoints.player.fighter := rfl
  exact (begun.trans (hookless_budget .reset)).trans (turnStart_hooked there)

theorem beginPlayerTurn_hooked : b.Hooked b.dawnHooks b.beginPlayerTurn := by
  have granted : b.awoken.2.Hooked []
      (if b.awoken.1 = 0 then b.awoken.2 else b.awoken.2.grantCards b.awoken.1) := by
    split
    · exact .refl _
    · exact grantCards_hookless _ _
  have supplied : b.Hooked b.dawnHooks b.supplied :=
    (awoken_hooked b).still (granted.trans (drawCards_hookless _ _))
  rw [beginPlayerTurn_eq]
  exact supplied.still ((fireDelayed_hookless _).trans (checkEnd_hookless _))

theorem rested_hooked : b.Hooked [(.turnEnd .player, b)] b.rested :=
  (endBuffs_hooked b .player).still (discardHand_hookless _)

theorem endPlayerTurn_hooked : b.Hooked b.roundHooks b.endPlayerTurn := by
  have rests : (b.endBuffs .player).discardHand = b.rested := rfl
  -- The hooks follow the two end checks, after each of which the battle may be over.
  have ended := (rested_hooked b).still (checkEnd_hookless b.rested)
  simp only [endPlayerTurn, roundHooks, rests]
  generalize b.rested.checkEnd = r at ended ⊢
  obtain ⟨isOver, b₁⟩ := r
  cases isOver with
  | true => exact ended
  | false =>
    have fought := ended.append
      ((setPhase_hookless b₁ .enemyTurn).trans (runEnemyTurn_hooked (b₁.setPhase .enemyTurn)))
    have checked := fought.still (checkEnd_hookless (b₁.setPhase .enemyTurn).runEnemyTurn)
    simp only
    generalize (b₁.setPhase .enemyTurn).runEnemyTurn.checkEnd = r at checked ⊢
    obtain ⟨isOver, b₂⟩ := r
    cases isOver with
    | true => simpa using checked
    | false => simpa using checked.append (beginPlayerTurn_hooked b₂)

theorem begin_hooked :
    b.Hooked (b.emit (.phaseChanged .battleStart)).refreshIntents.dawnHooks b.begin := by
  have opened : b.Hooked [] (b.emit (.phaseChanged .battleStart)) :=
    hookless_emit (by simp [Event.topic]) b
  exact (opened.trans (refreshIntents_hookless _)).trans (beginPlayerTurn_hooked _)

/-! ## Plays -/

theorem opened_hookless (c : CardCopy) (piles : Piles) (target : Option FighterId) :
    b.Hooked [] (b.opened c piles target) := by
  have fighter : (({ b.player with piles } : Player).spendAction? c.cost |>.getD
      { b.player with piles }).fighter = b.player.fighter := by
    cases paid : ({ b.player with piles } : Player).spendAction? c.cost with
    | none => rfl
    | some q =>
      obtain ⟨n, rfl⟩ := (Player.Budget.spend paid).exists_eq
      rfl
  have paid := hookless_player (b := b) (e := .actionPointsChanged
    ((({ b.player with piles } : Player).spendAction? c.cost).getD
      { b.player with piles }).actionPoints) fighter
    (by simp [Event.topic])
  exact paid.trans (hookless_emit (by simp [Event.topic]) _)

theorem finishPlay_hookless : b.Hooked [] b.finishPlay := by
  simp only [finishPlay]
  split
  · exact checkEnd_hookless b
  · rename_i id piles _
    have discarded : b.Hooked []
        ({ b with player := { b.player with piles } }.emit (.cardsDiscarded [id])) :=
      hookless_player rfl (by simp [Event.topic])
    exact discarded.trans (checkEnd_hookless _)

theorem play_hookless {b b' : Battle} {copy : Nat} {target : Option FighterId}
    (h : b.play copy target = .ok b') : b.Hooked [] b' := by
  obtain ⟨place, c, piles, _, _, eq⟩ := exists_of_play h
  rw [eq, playCopy_eq]
  exact ((opened_hookless b c piles target).trans (resolveCard_hookless _ target _)).trans
    (finishPlay_hookless _)

end Battle

/-! ## Calls -/

namespace Session

open Battle

/-- From `b` to a session these passages lead, and its history tells all of them. -/
structure Traced (b : Battle) (ps : List Passage) (s : Session) : Prop where
  chronicle : b.Chronicle ps s.battle
  history : s.history = ps.flatMap Passage.told

variable {b : Battle} {ps : List Passage} {s : Session}

theorem Traced.hooked {hooks : List (Hook × Battle)} {b' : Battle} (h : Traced b ps s)
    (hooked : s.battle.Hooked hooks b') :
    ∃ qs, Traced b (ps ++ qs) { s with battle := b' } ∧
      qs.filterMap Passage.hooked? = hooks := by
  obtain ⟨qs, chronicle, same, events⟩ := hooked
  refine ⟨qs, ⟨h.chronicle.append chronicle, ?_⟩, same⟩
  rw [history_told events, h.history, List.flatMap_append]

/-- One call. -/
theorem Traced.call (h : Traced b ps s) (c : Call) :
    ∃ qs, Traced b (ps ++ qs) (s.call c) ∧ qs.filterMap Passage.hooked? = s.callHooks c := by
  cases c with
  | drain =>
    refine ⟨[], ⟨?_, ?_⟩, rfl⟩
    · rw [List.append_nil]
      exact .drained h.chronicle
    · rw [history_drain, List.append_nil]
      exact h.history
  | play copy target =>
    simp only [Session.call, callHooks]
    cases played : s.battle.play copy target with
    | error _ => exact h.hooked (.refl _)
    | ok b' => exact h.hooked (play_hookless played)
  | endTurn =>
    simp only [Session.call, callHooks]
    cases ended : s.battle.endTurn with
    | error _ => exact h.hooked (.refl _)
    | ok b' =>
      rw [(endTurn_eq_ok ended).2]
      exact h.hooked (endPlayerTurn_hooked s.battle)

theorem Traced.run (h : Traced b ps s) (calls : List Call) :
    ∃ qs, Traced b (ps ++ qs) (s.run calls) ∧
      qs.filterMap Passage.hooked? = s.hooks calls := by
  induction calls generalizing ps s with
  | nil => exact ⟨[], by rwa [List.append_nil], rfl⟩
  | cons c cs ih =>
    obtain ⟨qs, first, hooks⟩ := h.call c
    obtain ⟨rs, others, hooks'⟩ := ih first
    refine ⟨qs ++ rs, ?_, ?_⟩
    · rw [← List.append_assoc]
      exact others
    · rw [List.filterMap_append, hooks, hooks', Session.hooks]

/-- The passages of a started battle: from the state in which it was built they lead to the state
after all calls, tell its whole history, and run the hooks of the first turn and of the calls. -/
theorem exists_chronicle {b₀ : Battle} (quiet : b₀.events = #[]) (calls : List Call) :
    ∃ ps, Traced b₀ ps (run { battle := b₀.begin } calls) ∧
      ps.filterMap Passage.hooked? =
        (b₀.emit (.phaseChanged .battleStart)).refreshIntents.dawnHooks ++
          hooks { battle := b₀.begin } calls := by
  have built : Traced b₀ [] { battle := b₀ } := ⟨.start, by simp [history, quiet]⟩
  obtain ⟨ps, begun, dawn⟩ := built.hooked (begin_hooked b₀)
  obtain ⟨qs, traced, called⟩ := begun.run calls
  refine ⟨ps ++ qs, traced, ?_⟩
  rw [List.filterMap_append, dawn, called]

end Session
end CardBattle
