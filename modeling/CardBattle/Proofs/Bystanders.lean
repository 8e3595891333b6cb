import CardBattle.Proofs.Reach

/-!
# CardBattle.Proofs.Bystanders

Whom an enemy can reach: itself and the player. A skill neither echoes nor repeats, so its
resolution is one pass over its slots.

* `reached_of_enemy`: an enemy reaches only itself and the player.
* `resolveSkill_eq`: a skill is one pass.
* `resolveSkill_bystander`, `enemyActs_bystander`: an enemy spares the other enemies.
* `Deeds.intent?`, `enemyActs_intent?`: nothing that enemies do changes what they intend.
-/

namespace CardBattle

open Relation

theorem FighterId.enemy_ne_player (i : Nat) : FighterId.enemy i ≠ .player := by simp

namespace Battle

variable {id : FighterId} (b : Battle)

/-! ## Single changes -/

theorem fighter?_setFighter_of_ne {t : FighterId} (h : id ≠ t) (f : Fighter) :
    (b.setFighter t f).fighter? id = b.fighter? id := by
  cases t with
  | player =>
    cases id with
    | player => exact absurd rfl h
    | enemy i => rfl
  | enemy k =>
    cases id with
    | player => rfl
    | enemy i =>
      have other : k ≠ i := fun eq => h (congrArg FighterId.enemy eq.symm)
      simp [setFighter, fighter?, other]

theorem fighter?_emitExpired (t : FighterId) (kinds : List BuffKind) :
    (b.emitExpired t kinds).fighter? id = b.fighter? id :=
  fighter?_emitAll b _ id

theorem fighter?_startBuffs {t : FighterId} (h : id ≠ t) :
    (b.startBuffs t).2.fighter? id = b.fighter? id := by
  have touched : Touches (Eq t) b (b.startBuffs t).2 := startBuffs_touches rfl b
  exact touched.fighter? (Ne.symm h)

theorem fighter?_endBuffs {t : FighterId} (h : id ≠ t) :
    (b.endBuffs t).fighter? id = b.fighter? id := by
  have touched : Touches (Eq t) b (b.endBuffs t) := endBuffs_touches rfl b
  exact touched.fighter? (Ne.symm h)

theorem fighter?_discardHand : b.discardHand.fighter? id = b.fighter? id := by
  simp only [discardHand]
  split <;> exact fighter?_congr rfl rfl id

end Battle

namespace Frame

open Battle

/-! ## Skills -/

theorem call?_of_source {frame : Frame} (h : frame.source = none) (p : Progress) (s : Slot) :
    frame.call? p s = none := by
  simp only [call?, h]
  split <;> rfl

/-- Without a copy that resolves nothing can be echoed. -/
theorem runSlots_of_source {frame : Frame} (h : frame.source = none) (echo : Echo)
    (slots : List Slot) (p : Progress) :
    frame.runSlots echo slots p = frame.runSlots mute slots p := by
  simp only [runSlots]
  induction slots generalizing p with
  | nil => rfl
  | cons s ss ih => rw [List.foldl_cons, List.foldl_cons, runSlot_eq echo, call?_of_source h, ih]

/-- Enemies cannot pay. -/
theorem runRepeatSlot_of_enemy {frame : Frame} {i : Nat} (h : frame.caster = .enemy i) (echo : Echo)
    (s : Slot) (rest : List Slot) (p : Progress) : frame.runRepeatSlot echo s rest p = p := by
  have poor : ∀ (meter : Meter) (cost : Int) (n : Nat),
      frame.runRepeats echo rest meter cost n p = p := by
    intro meter cost n
    cases n with
    | zero => rfl
    | succ n => simp only [runRepeats, h, pay?]
  simp only [runRepeatSlot]
  split
  · split
    · exact poor _ _ _
    · rfl
  · rfl

theorem runSlots_deeds (frame : Frame) (slots : List Slot) (p : Progress) :
    Deeds p.battle (frame.runSlots mute slots p).battle := by
  simp only [runSlots]
  induction slots generalizing p with
  | nil => exact .refl
  | cons s ss ih => exact (runSlot_deeds frame p s).trans (ih _)

/-- An enemy reaches itself and the player. -/
theorem reached_of_enemy {frame : Frame} {i : Nat} (h : frame.caster = .enemy i) (b : Battle)
    (e : Effect) : ∀ id ∈ frame.reached b e, id = .enemy i ∨ id = .player := by
  have target : ∀ id, frame.singleTarget? b = some id → id = .player := by
    intro id hid
    simp only [singleTarget?, h] at hid
    split at hid <;> cases hid
    rfl
  have side : ∀ id ∈ b.opponents frame.caster, id = .player := by
    intro id hid
    simp only [opponents, h] at hid
    split at hid
    · exact List.mem_singleton.mp hid
    · cases hid
  intro id hid
  unfold reached at hid
  split at hid
  case h_1 =>
    rcases List.mem_cons.mp hid with rfl | hid
    · exact .inl h
    · exact .inr (target id (Option.mem_toList.mp hid))
  case h_2 =>
    rcases List.mem_cons.mp hid with rfl | hid
    · exact .inl h
    · exact .inr (side id hid)
  case h_7 scope _ =>
    cases scope with
    | caster => exact .inl ((List.mem_singleton.mp hid).trans h)
    | target => exact .inr (target id (Option.mem_toList.mp hid))
    | opponents => exact .inr (side id hid)
  case h_8 => cases hid
  all_goals exact .inl ((List.mem_singleton.mp hid).trans h)

theorem runSlot_bystander {frame : Frame} {i : Nat} (h : frame.caster = .enemy i) {id : FighterId}
    (other : id ≠ .enemy i) (foe : id ≠ .player) (p : Progress) (s : Slot) :
    (frame.runSlot mute p s).battle.fighter? id = p.battle.fighter? id := by
  rw [runSlot_eq_execute]
  cases frame.effect? p s with
  | none => rfl
  | some e =>
    refine (frame.execute_alters p e).fighter? fun there => ?_
    obtain own | player := reached_of_enemy h p.battle e id there
    · exact other own
    · exact foe player

theorem runSlots_bystander {frame : Frame} {i : Nat} (h : frame.caster = .enemy i) {id : FighterId}
    (other : id ≠ .enemy i) (foe : id ≠ .player) (slots : List Slot) (p : Progress) :
    (frame.runSlots mute slots p).battle.fighter? id = p.battle.fighter? id := by
  simp only [runSlots]
  induction slots generalizing p with
  | nil => rfl
  | cons s ss ih => exact (ih _).trans (runSlot_bystander h other foe p s)

end Frame

namespace Battle

open CardBattle.Frame

/-- A skill runs its plain slots once: it has no copy to echo from and no meter to repeat with. -/
theorem resolveSkill_eq (i : Nat) (skill : Skill) (attack : Int) (b : Battle) :
    ∃ frame : Frame, frame.caster = .enemy i ∧ frame.slots = skill.slots attack ∧
      (b.resolveSkill (.enemy i) skill attack).2 =
        (frame.runSlots mute frame.plainSlots { battle := b, killed := false }).battle := by
  refine ⟨{ caster := .enemy i, target := some .player, slots := skill.slots attack }, rfl, rfl, ?_⟩
  simp only [resolveSkill, runCard]
  rw [runSlots_of_source rfl]
  split
  · rfl
  · rw [runRepeatSlot_of_enemy rfl]

variable {id : FighterId} {i : Nat} (b : Battle)

theorem resolveSkill_deeds (i : Nat) (skill : Skill) (attack : Int) :
    Deeds b (b.resolveSkill (.enemy i) skill attack).2 := by
  obtain ⟨frame, _, _, eq⟩ := resolveSkill_eq i skill attack b
  rw [eq]
  exact runSlots_deeds frame _ { battle := b, killed := false }

theorem resolveSkill_bystander (other : id ≠ .enemy i) (foe : id ≠ .player) (skill : Skill)
    (attack : Int) : (b.resolveSkill (.enemy i) skill attack).2.fighter? id = b.fighter? id := by
  obtain ⟨frame, caster, _, eq⟩ := resolveSkill_eq i skill attack b
  rw [eq]
  exact runSlots_bystander caster other foe _ _

/-- The state in which a skill has just been told. -/
def casting (id : FighterId) (skill : Skill) (b : Battle) : Battle :=
  (b.updateEnemy id fun e => { e with casts := e.casts + 1 }).emit (.skillUsed id skill.id)

theorem fighter?_casting (id t : FighterId) (skill : Skill) :
    (b.casting t skill).fighter? id = b.fighter? id := by
  refine (fighter?_emitAll _ [_] id).trans (fighter?_congr ?_ ?_ id)
  · rw [player_updateEnemy]
  · exact map_fighter_updateEnemy b t _ fun _ => rfl

/-- What an enemy that is alive does: nothing without an intent, else what its skill does. -/
theorem performIntent_eq (alive : b.isAlive id = true) (h : id ≠ .player) :
    (b.intent? id = none ∧ (b.performIntent id).2 = b) ∨
      ∃ skill attack, b.intent? id = some skill ∧
        (b.performIntent id).2 = ((b.casting id skill).resolveSkill id skill attack).2 := by
  cases id with
  | player => exact absurd rfl h
  | enemy i =>
    simp only [isAlive, fighter?] at alive
    simp only [intent?, performIntent, enemy?, casting]
    cases he : b.enemies[i]? with
    | none => exact .inl ⟨rfl, rfl⟩
    | some e =>
      simp only [he, Option.map_some] at alive
      simp only [alive, if_true]
      cases hs : e.intentSkill? with
      | none => exact .inl ⟨rfl, rfl⟩
      | some s => exact .inr ⟨s.skill, e.monster.attack, rfl, rfl⟩

theorem performIntent_bystander (alive : b.isAlive (.enemy i) = true) (other : id ≠ .enemy i)
    (foe : id ≠ .player) : (b.performIntent (.enemy i)).2.fighter? id = b.fighter? id := by
  obtain ⟨_, eq⟩ | ⟨skill, attack, _, eq⟩ := performIntent_eq b alive (FighterId.enemy_ne_player i)
  · rw [eq]
  · rw [eq, resolveSkill_bystander _ other foe, fighter?_casting]

/-- An enemy that acts spares the other enemies. -/
theorem enemyActs_bystander (other : id ≠ .enemy i) (foe : id ≠ .player) :
    (b.enemyActs (.enemy i)).fighter? id = b.fighter? id := by
  simp only [enemyActs]
  split
  · split
    · rename_i alive
      exact (performIntent_bystander _ alive other foe).trans (fighter?_startBuffs b other)
    · exact fighter?_startBuffs b other
  · rfl

/-! ## Intents -/

/-- What an enemy can do, and what it means to do. -/
def plans (e : Enemy) : Option String × List OwnedSkill := (e.intent, e.skills)

theorem intent?_congr {b b' : Battle} (h : b'.enemies.map plans = b.enemies.map plans)
    (id : FighterId) : b'.intent? id = b.intent? id := by
  cases id with
  | player => rfl
  | enemy i =>
    have here := congrArg (·[i]?) h
    simp only [List.getElem?_map] at here
    simp only [intent?, enemy?]
    cases he : b.enemies[i]? with
    | none => simp_all
    | some e =>
      cases he' : b'.enemies[i]? with
      | none => simp_all
      | some e' =>
        simp only [he, he', Option.map_some, Option.some.injEq, plans, Prod.mk.injEq] at here
        simp only [Enemy.intentSkill?, Enemy.skill?, here.1, here.2]

theorem plans_updateEnemy (id : FighterId) (g : Enemy → Enemy) (hg : ∀ e, plans (g e) = plans e) :
    (b.updateEnemy id g).enemies.map plans = b.enemies.map plans := by
  cases id with
  | player => rfl
  | enemy i =>
    apply List.ext_getElem?
    intro k
    simp only [updateEnemy, List.getElem?_map, List.getElem?_modify]
    split
    · cases b.enemies[k]? <;> simp [hg]
    · simp

theorem plans_setFighter (id : FighterId) (f : Fighter) :
    (b.setFighter id f).enemies.map plans = b.enemies.map plans := by
  cases id with
  | player => rfl
  | enemy i => exact plans_updateEnemy b (.enemy i) (fun e => { e with fighter := f }) fun _ => rfl

end Battle

theorem Deed.plans {b b' : Battle} (h : Deed b b') :
    b'.enemies.map Battle.plans = b.enemies.map Battle.plans := by
  cases h with
  | @fighter id _ f' _ _ _ =>
    rw [Battle.emitAll_eq]
    exact b.plans_setFighter id f'
  | piles _ => rw [Battle.emitAll_eq]; rfl
  | gauges _ => rfl
  | points _ => rfl
  | enqueue _ => rfl

theorem Deeds.intent? {b b' : Battle} (h : Deeds b b') (id : FighterId) :
    b'.intent? id = b.intent? id := by
  induction h with
  | refl => rfl
  | tail _ last ih => exact (Battle.intent?_congr last.plans id).trans ih

namespace Battle

/-- Nothing that an enemy does changes what any of them intends. -/
theorem enemyActs_intent? (i : Nat) (id : FighterId) (b : Battle) :
    (b.enemyActs (.enemy i)).intent? id = b.intent? id := by
  have started := (startBuffs_deeds (.enemy i) b).intent? id
  simp only [enemyActs]
  split
  · split
    · rename_i alive
      obtain ⟨_, eq⟩ | ⟨skill, attack, _, eq⟩ :=
        performIntent_eq _ alive (FighterId.enemy_ne_player i)
      · rw [eq, started]
      · have told : ∀ b : Battle, (b.casting (.enemy i) skill).intent? id = b.intent? id := by
          intro b
          have kept : (b.casting (.enemy i) skill).enemies.map plans = b.enemies.map plans :=
            plans_updateEnemy b (.enemy i) _ fun _ => rfl
          exact intent?_congr kept id
        rw [eq, (resolveSkill_deeds _ i skill attack).intent? id, told, started]
    · exact started
  · rfl

end Battle
end CardBattle
