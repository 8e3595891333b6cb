import CardBattle.Proofs.Keeping

/-!
# CardBattle.Proofs.Collateral

A play without area effects changes no enemy but its target. The target of a play is handed on to
every echo, and a slot that aims at it finds the target or, once it has fallen, nobody. So the other
enemies stay as they are, whatever the cards do to each other, and a play without a target changes
no enemy at all.

* `Frame.Aimed`: a frame of the player for a target, without area effects.
* `Frame.reached_of_aimed`, `spares_keeps`: whom such a frame reaches, and what it keeps.
* `Battle.spares_of_play`: what a whole play leaves.
-/

namespace CardBattle

open Relation CardBattle.Frame

/-- The kinds that aim at all enemies at once. A delayed hit on all of them waits for its turn. -/
def EffectKind.isArea : EffectKind → Bool
  | .areaDamage | .buffArea => true
  | _ => false

theorem Piles.mem_live_of_mem_hand {p : Piles} {c : CardCopy} (h : c ∈ p.hand) : c ∈ p.live := by
  simp [live, h]

namespace Frame

/-- The player turns on this target, and on nobody else. -/
structure Aimed (target : Option FighterId) (frame : Frame) : Prop where
  caster : frame.caster = .player
  target : frame.target = target
  free : frame.Free EffectKind.isArea

theorem singleTarget?_of_aimed {target : Option FighterId} {frame : Frame}
    (aimed : frame.Aimed target) {b : Battle} {id : FighterId}
    (found : frame.singleTarget? b = some id) : target = some id := by
  simp only [singleTarget?, aimed.caster, aimed.target] at found
  split at found
  · cases found
  · split at found
    · exact found
    · cases found

/-- Such a frame reaches the player and the target. -/
theorem reached_of_aimed {target : Option FighterId} {frame : Frame} (aimed : frame.Aimed target)
    (b : Battle) {s : Slot} {e : Effect} (there : s ∈ frame.slots) (own : s.kind ∈ e.kinds) :
    ∀ id ∈ frame.reached b e, id = .player ∨ target = some id := by
  have calm := aimed.free s there
  have single : ∀ id ∈ (frame.singleTarget? b).toList, target = some id := fun id hid =>
    singleTarget?_of_aimed aimed (Option.mem_toList.mp hid)
  intro id hid
  cases e with
  | damageTarget x =>
    rcases List.mem_cons.mp hid with rfl | hid
    · exact .inl aimed.caster
    · exact .inr (single id hid)
  | damageOpponents x =>
    rw [List.mem_singleton.mp own] at calm
    cases calm
  | applyBuff scope spec =>
    cases scope with
    | caster => exact .inl ((List.mem_singleton.mp hid).trans aimed.caster)
    | target => exact .inr (single id hid)
    | opponents =>
      rw [List.mem_singleton.mp own] at calm
      cases calm
  | damageSelf x => exact .inl ((List.mem_singleton.mp hid).trans aimed.caster)
  | healSelf x => exact .inl ((List.mem_singleton.mp hid).trans aimed.caster)
  | healSelfPercent x => exact .inl ((List.mem_singleton.mp hid).trans aimed.caster)
  | cleanseSelf n => exact .inl ((List.mem_singleton.mp hid).trans aimed.caster)
  | _ => cases hid

end Frame

namespace Battle

/-- The enemies are as many as before, and all but the target are as they were: with their hit
points, shields, buffs, intents and casts. -/
structure Spares (target : Option FighterId) (b b' : Battle) : Prop where
  length : b'.enemies.length = b.enemies.length
  enemy : ∀ id, target ≠ some id → b'.enemy? id = b.enemy? id

variable {target : Option FighterId} {b b₁ b' : Battle}

theorem Spares.trans (h : b.Spares target b₁) (h' : b₁.Spares target b') : b.Spares target b' :=
  ⟨h'.length.trans h.length, fun id other => (h'.enemy id other).trans (h.enemy id other)⟩

theorem spares_of_enemies (same : b'.enemies = b.enemies) : b.Spares target b' := by
  refine ⟨by rw [same], fun id _ => ?_⟩
  cases id with
  | player => rfl
  | enemy i => show b'.enemies[i]? = b.enemies[i]?; rw [same]

/-- Without a target nothing is left that could differ. -/
theorem Spares.enemies (h : b.Spares none b') : b'.enemies = b.enemies := by
  refine List.ext_getElem? fun i => ?_
  exact h.enemy (.enemy i) nofun

/-- What reaches no enemy but the target spares the others. -/
theorem spares_of_alters {who : FighterId → Prop} {part : Effect.Part} (h : b.Alters who part b')
    (out : ∀ i, target ≠ some (.enemy i) → ¬ who (.enemy i)) : b.Spares target b' := by
  refine ⟨h.length_enemies, fun id other => ?_⟩
  cases id with
  | player => rfl
  | enemy i => exact h.enemy? (out i other)

end Battle

open Battle

theorem Frame.execute_spares {target : Option FighterId} {frame : Frame} (aimed : frame.Aimed target)
    (p : Progress) {s : Slot} {e : Effect} (there : s ∈ frame.slots) (own : s.kind ∈ e.kinds) :
    p.battle.Spares target (frame.execute mute p e).battle := by
  refine spares_of_alters (frame.execute_alters p e) fun i other reached => ?_
  obtain player | aim := reached_of_aimed aimed p.battle there own _ reached
  · cases player
  · exact other aim

/-- The cards that can be drawn on the way are among those that were there at the start. -/
theorem spares_keeps (target : Option FighterId) {b : Battle}
    (clear : CardCopy.AllFree EffectKind.isArea b.player.piles.live) :
    Keeps (Frame.Aimed target) (fun b₁ => Acts b b₁ ∧ b.Spares target b₁) where
  effect := by
    rintro frame p s e aimed there own ⟨acts, spares⟩
    exact ⟨acts.trans (execute_deeds frame p e).acts,
      spares.trans (frame.execute_spares aimed p there own)⟩
  payment := by
    rintro frame s meter cost b₁ b₂ _ _ _ pay ⟨acts, spares⟩
    exact ⟨acts.trans (pay?_acts pay), spares.trans (spares_of_alters (pay?_alters pay) fun _ _ => id)⟩
  echo := by
    rintro frame place c b₁ aimed ⟨acts, spares⟩ held
    have clear' := clear.of_subset acts.lasting.live
    have there := Piles.mem_live_of_mem_hand (List.mem_of_getElem? held)
    exact ⟨⟨aimed.caster, aimed.target, clear' c there⟩, acts.tail (.echo held),
      spares.trans (spares_of_enemies rfl)⟩

namespace Battle

variable {target : Option FighterId} {b b' : Battle} {copy : Nat}

/-- An accepted play, if no card that is not destroyed aims at all enemies: whatever the cards echo
and however often they repeat, every enemy but the target is as before, whether or not the target
falls on the way; and without a target all enemies are. -/
theorem spares_of_play (h : b.play copy target = .ok b')
    (clear : CardCopy.AllFree EffectKind.isArea b.player.piles.live) :
    b.Spares target b' ∧ (target = none → b'.enemies = b.enemies) := by
  have spares : b.Spares target b' := by
    obtain ⟨place, c, piles, begun, _, eq⟩ := exists_of_play h
    obtain ⟨ms, b₁, resolved⟩ := exists_copyResolves
      { copy := c.id, card := c.card, place } target (b.opened c piles target)
    obtain ⟨held, _, _⟩ := Piles.beginPlay?_spec begun
    have there := Piles.mem_live_of_mem_hand (List.mem_of_getElem? held)
    have opened : b.Spares target (b.opened c piles target) := spares_of_enemies rfl
    have clear' : CardCopy.AllFree EffectKind.isArea (b.opened c piles target).player.piles.live := by
      rw [piles_opened]
      exact clear.of_subset (Piles.live_beginPlay? begun)
    have keeps := spares_keeps target clear'
    have acts := (b.opened c piles target).takeSwift_deeds.acts
    have swift : (b.opened c piles target).Spares target (b.opened c piles target).takeSwift.2 :=
      spares_of_alters (takeSwift_alters _) nofun
    obtain ⟨_, resolves⟩ := resolved.keeps keeps keeps ⟨rfl, rfl, clear c there⟩
      ⟨acts, swift⟩ fun b₂ now =>
        ⟨now.1.trans (applyShifts_deeds c.card b₂).acts,
          now.2.trans (spares_of_alters (applyShifts_alters c.card b₂) fun _ _ => id)⟩
    obtain ⟨_, _, _, finished⟩ := b₁.exists_finishPlay_eq
    rw [eq, playCopy_eq, ← resolved.eq, finished]
    exact (opened.trans resolves).trans (spares_of_enemies rfl)
  refine ⟨spares, ?_⟩
  rintro rfl
  exact spares.enemies

/-! ## A target that falls -/

def flurry : Card :=
  { id := "flurry", name := "Flurry", cost := 1
    description := "Deal 60 damage, then 5 damage. Cast the card to the right."
    slots := .ofList
      [Sample.slot .singleDamage "60", Sample.slot .singleDamage "5",
        Sample.slot .castMore "Right,1"] }

def taunt : Card :=
  { id := "taunt", name := "Taunt", cost := 0
    description := "Weaken an enemy, then deal 4 damage to it."
    slots := .ofList
      [Sample.slot .buffTarget "Weak,25,2", Sample.slot .singleDamage "4"] }

/-- Both cards in the hand, against two enemies. -/
def skirmish : Battle :=
  let b := dealt [flurry, taunt] 5
  { b with
    enemies := b.enemies ++
      [Enemy.fresh (.enemy 1) { id := "dummy", name := "Dummy", hp := 50 } none []] }

/-- The first enemy falls to the first slot. The second slot and the echo that follow leave the
other enemy alone. -/
theorem spares_of_play_skirmish :
    ∃ b, skirmish.play 0 (some (.enemy 0)) = .ok b ∧ b.isAlive (.enemy 0) = false ∧
      b.enemy? (.enemy 1) = skirmish.enemy? (.enemy 1) := by
  have falls : (skirmish.play 0 (some (.enemy 0))).map (fun b => b.isAlive (.enemy 0)) =
      .ok false := by decide +kernel
  obtain ⟨b, played, fallen⟩ := map_eq_ok_iff.mp falls
  exact ⟨b, played, fallen, (spares_of_play played (by decide)).1.enemy _ nofun⟩

end Battle
end CardBattle
