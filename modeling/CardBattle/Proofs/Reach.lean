import CardBattle.Proofs.Echoing
import CardBattle.Proofs.Fighters

/-!
# CardBattle.Proofs.Reach

How far an effect reaches. Every effect changes one part of a battle: the fighters, what the player
pays with, the copies or the queue of delayed hits. Hits, healing and buffs reach the caster, its
target or the opponents of the caster, and no other effect changes a fighter.

* `Effect.kinds`: the slots that an effect can be read from.
* `Touch`, `Touches`: changes of some fighters, and what they leave alone.
* `Effect.part`, `Battle.Alters`: a change of one part, and what it leaves alone.
* `Frame.reached`, `Frame.execute_alters`: what an effect changes, and whom it reaches.
-/

namespace CardBattle

open Relation

/-! ## Readings -/

namespace Effect

/-- The kinds of the slots that can be read as an effect. -/
def kinds : Effect → List EffectKind
  | .damageTarget _ => [.singleDamage]
  | .damageOpponents _ => [.areaDamage]
  | .damageSelf _ => [.selfDamage]
  | .healSelf _ => [.selfFlatHeal]
  | .healSelfPercent _ => [.selfPercentHeal]
  | .shiftGauge .angel _ => [.angelUp, .angelDown]
  | .shiftGauge .demon _ => [.demonUp, .demonDown]
  | .gainAction _ => [.gainAction]
  | .reduceCost _ => [.reduceCost]
  | .drawCards _ => [.drawCards]
  | .burn .draw _ => [.burnDeck]
  | .burn .hand _ => [.burnHand]
  | .burn .discard _ => []
  | .cleanseSelf _ => [.cleanseSelf]
  | .applyBuff .caster _ => [.buffSelf]
  | .applyBuff .target _ => [.buffTarget]
  | .applyBuff .opponents _ => [.buffArea]
  | .castMore _ _ => [.castMore]
  | .delay .single _ _ => [.delaySingle]
  | .delay .area _ _ => [.delayArea]
  | .spendRepeat _ _ _ => [.spendRepeat]

variable {kind : EffectKind} {value : List Char} {e : Effect}

theorem exists_of_buff {scope : BuffScope} (h : buff value scope = .ok e) :
    ∃ spec, e = .applyBuff scope spec := by
  unfold buff at h
  split at h <;> cases h
  exact ⟨_, rfl⟩

theorem exists_of_castMoreOf (h : castMoreOf kind value = .ok e) :
    ∃ side distance, e = .castMore side distance := by
  unfold castMoreOf at h
  split at h
  · cases h
  · split at h
    · cases h
    · obtain ⟨_, _, rfl⟩ := map_eq_ok_iff.mp h
      exact ⟨_, _, rfl⟩

theorem exists_of_delayOf {mode : DelayMode} (h : delayOf kind value mode = .ok e) :
    ∃ damage turns, e = .delay mode damage turns ∧ Amount.InRange turns := by
  unfold delayOf at h
  split at h
  · cases h
  · split at h
    · cases h
    · obtain ⟨_, read, rfl⟩ := map_eq_ok_iff.mp h
      exact ⟨_, _, rfl, integer_inRange read⟩

theorem exists_of_spendRepeatOf (h : spendRepeatOf kind value = .ok e) :
    ∃ meter cost budget, e = .spendRepeat meter cost budget := by
  unfold spendRepeatOf at h
  split at h
  · split at h
    · cases h
    · split at h
      · cases h
      · obtain ⟨_, _, rfl⟩ := map_eq_ok_iff.mp h
        exact ⟨_, _, _, rfl⟩
  · cases h

/-- A slot is read as an effect of its own kind. -/
theorem mem_kinds_of_read {text : String} (h : read kind text = .ok (some e)) :
    kind ∈ e.kinds := by
  rw [read] at h
  generalize Text.trim text.toList = value at h
  cases kind with
  | none => cases h
  | buffSelf | buffTarget | buffArea =>
    obtain ⟨_, ok, eq⟩ := map_eq_ok_iff.mp h
    cases eq
    obtain ⟨_, rfl⟩ := exists_of_buff ok
    simp [kinds]
  | castMore =>
    obtain ⟨_, ok, eq⟩ := map_eq_ok_iff.mp h
    cases eq
    obtain ⟨_, _, rfl⟩ := exists_of_castMoreOf ok
    simp [kinds]
  | delaySingle | delayArea =>
    obtain ⟨_, ok, eq⟩ := map_eq_ok_iff.mp h
    cases eq
    obtain ⟨_, _, rfl, _⟩ := exists_of_delayOf ok
    simp [kinds]
  | spendRepeat =>
    obtain ⟨_, ok, eq⟩ := map_eq_ok_iff.mp h
    cases eq
    obtain ⟨_, _, _, rfl⟩ := exists_of_spendRepeatOf ok
    simp [kinds]
  | _ =>
    obtain ⟨_, _, eq⟩ := map_eq_ok_iff.mp h
    cases eq
    simp [kinds]

end Effect

/-! ## Changes of fighters -/

section

variable {who : FighterId → Prop} {b b' : Battle} {id : FighterId}

/-- Besides fighters and the log everything stays as it is. -/
theorem Touches.exists_eq (h : Touches who b b') :
    ∃ fighter enemies events, enemies.length = b.enemies.length ∧
      b' = { b with player := { b.player with fighter }, enemies, events } := by
  induction h with
  | refl => exact ⟨_, _, _, rfl, rfl⟩
  | tail _ last ih =>
    obtain ⟨fighter, enemies, events, length, rfl⟩ := ih
    cases last with
    | @change id f f' es _ _ _ =>
      rw [Battle.emitAll_eq]
      cases id with
      | player => exact ⟨f', enemies, _, length, rfl⟩
      | enemy i =>
        refine ⟨fighter, enemies.modify i fun e => { e with fighter := f' }, _, ?_, rfl⟩
        rw [List.length_modify, length]

/-- An enemy that is not among them keeps its fighter, its intent and its casts. -/
theorem Touches.enemy? (h : Touches who b b') (out : ¬ who id) : b'.enemy? id = b.enemy? id := by
  induction h with
  | refl => rfl
  | tail _ last ih =>
    cases last with
    | @change t f f' es among _ _ =>
      have other : id ≠ t := by
        rintro rfl
        exact out among
      rw [Battle.enemy?_emitAll, Battle.enemy?_setFighter_of_ne other, ih]

theorem Touches.fighter? (h : Touches who b b') (out : ¬ who id) :
    b'.fighter? id = b.fighter? id := by
  induction h with
  | refl => rfl
  | tail _ last ih =>
    cases last with
    | @change t f f' es among hf _ =>
      have other : id ≠ t := by
        rintro rfl
        exact out among
      rw [Battle.fighter?_emitAll, Battle.fighter?_setFighter f' hf, if_neg other, ih]

end

/-! ## Effects -/

/-- The part of a battle that an effect changes. Echoes and repetitions change nothing by
themselves. -/
inductive Effect.Part where
  | fighters
  | means
  | copies
  | queue
  | nothing
deriving DecidableEq

def Effect.part : Effect → Part
  | .damageTarget _ | .damageOpponents _ | .damageSelf _ => .fighters
  | .healSelf _ | .healSelfPercent _ | .cleanseSelf _ | .applyBuff _ _ => .fighters
  | .shiftGauge _ _ | .gainAction _ => .means
  | .reduceCost _ | .drawCards _ | .burn _ _ => .copies
  | .delay _ _ _ => .queue
  | .castMore _ _ | .spendRepeat _ _ _ => .nothing

/-- A change of one part of a battle. If it is the fighters, then of some only. -/
inductive Battle.Alters (b : Battle) (who : FighterId → Prop) : Effect.Part → Battle → Prop where
  | fighters {b' : Battle} (h : Touches who b b') : Alters b who .fighters b'
  | means (angel demon actionPoints : Int) (events : Array Event) :
      Alters b who .means { b with player := { b.player with angel, demon, actionPoints }, events }
  | copies (piles : Piles) (chance : Chance.Stream) (events : Array Event) :
      Alters b who .copies { b with player := { b.player with piles }, chance, events }
  | queue (delayed : DelayQueue) (events : Array Event) :
      Alters b who .queue { b with delayed, events }
  | nothing : Alters b who .nothing b

namespace Battle

variable {b b' : Battle} {who : FighterId → Prop} {part : Effect.Part}

/-- An enemy out of reach stays as it is, with its fighter, its intent and its casts. -/
theorem Alters.enemy? {id : FighterId} (h : b.Alters who part b') (out : ¬ who id) :
    b'.enemy? id = b.enemy? id := by
  cases h with
  | fighters h => exact h.enemy? out
  | _ => cases id <;> rfl

theorem Alters.fighter? {id : FighterId} (h : b.Alters who part b') (out : ¬ who id) :
    b'.fighter? id = b.fighter? id := by
  cases h with
  | fighters h => exact h.fighter? out
  | _ => cases id <;> rfl

theorem Alters.length_enemies (h : b.Alters who part b') :
    b'.enemies.length = b.enemies.length := by
  cases h with
  | fighters h =>
    obtain ⟨_, _, _, length, rfl⟩ := h.exists_eq
    exact length
  | _ => rfl

theorem Alters.exists_player_eq (h : b.Alters who part b') (other : part ≠ .means) :
    ∃ fighter piles, b'.player = { b.player with fighter, piles } := by
  cases h with
  | fighters h =>
    obtain ⟨_, _, _, _, rfl⟩ := h.exists_eq
    exact ⟨_, _, rfl⟩
  | means _ _ _ _ => exact absurd rfl other
  | _ => exact ⟨_, _, rfl⟩

theorem Alters.copies_eq (h : b.Alters who part b') (other : part ≠ .copies) :
    b'.player.piles = b.player.piles ∧ b'.chance = b.chance := by
  cases h with
  | fighters h =>
    obtain ⟨_, _, _, _, rfl⟩ := h.exists_eq
    exact ⟨rfl, rfl⟩
  | copies _ _ _ => exact absurd rfl other
  | _ => exact ⟨rfl, rfl⟩

/-- A payment is about the player's means, and so are the shifts of a card. -/
theorem pay?_alters {caster : FighterId} {meter : Meter} {cost : Int}
    (h : b.pay? caster meter cost = some b') : b.Alters (fun _ => False) .means b' := by
  unfold pay? at h
  split at h
  · cases h
  · split at h
    · split at h <;> cases h
      exact .means _ _ _ _
    · split at h <;> cases h
      exact .means _ _ _ _
    · split at h
      · cases h
      · rename_i spent
        cases h
        obtain ⟨_, rfl⟩ := (Player.Budget.spend spent).exists_eq
        exact .means _ _ _ _

theorem applyShifts_alters (card : Card) (b : Battle) :
    b.Alters (fun _ => False) .means (applyShifts card b) := by
  unfold applyShifts
  split <;> exact .means _ _ _ _

/-- The swift buffs that are used up are the player's. -/
theorem takeSwift_alters (b : Battle) : b.Alters (Eq .player) .fighters b.takeSwift.2 :=
  .fighters (takeSwift_touches rfl b)

end Battle

namespace Frame

open Battle

/-- The fighters that an effect can change. -/
def reached (frame : Frame) (b : Battle) : Effect → List FighterId
  | .damageTarget _ => frame.caster :: (frame.singleTarget? b).toList
  | .damageOpponents _ => frame.caster :: b.opponents frame.caster
  | .damageSelf _ | .healSelf _ | .healSelfPercent _ | .cleanseSelf _ => [frame.caster]
  | .applyBuff scope _ => frame.buffTargets scope b
  | _ => []

variable (frame : Frame)

/-- An effect changes its part of the battle, and of the fighters those within its reach. -/
theorem execute_alters (p : Progress) (e : Effect) :
    p.battle.Alters (· ∈ frame.reached p.battle e) e.part (frame.execute mute p e).battle := by
  cases e with
  | damageTarget x =>
    refine .fighters ?_
    simp only [execute, reached]
    cases frame.singleTarget? p.battle with
    | none => exact .refl
    | some t =>
      have target : t ∈ frame.caster :: (some t).toList := by simp
      exact strike_touches List.mem_cons_self target x p.battle
  | damageOpponents x =>
    exact .fighters (strikes_touches List.mem_cons_self x (fun t => List.mem_cons_of_mem _) p)
  | damageSelf x => exact .fighters (hurtSelf_touches (List.mem_singleton.mpr rfl) x p.battle)
  | healSelf x => exact .fighters (heal_touches (List.mem_singleton.mpr rfl) x p.battle)
  | healSelfPercent x =>
    exact .fighters (healPercent_touches (List.mem_singleton.mpr rfl) x p.battle)
  | cleanseSelf n => exact .fighters (cleanse_touches (List.mem_singleton.mpr rfl) n p.battle)
  | applyBuff scope spec =>
    refine .fighters ?_
    simp only [execute]
    split
    · exact .refl
    · rename_i buff made
      exact applyBuffs_touches made (fun t ht => ht) p.battle
  | shiftGauge gauge delta => cases gauge <;> exact .means _ _ _ _
  | gainAction n =>
    simp only [execute]
    split <;> exact .means _ _ _ _
  | reduceCost n =>
    simp only [execute]
    split
    · exact .copies _ _ _
    · rename_i source _
      simp only [Progress.map, Battle.reduceCost]
      split <;> exact .copies _ _ _
  | drawCards n =>
    simp only [execute, Progress.map, Battle.drawCards]
    split <;> split <;> exact .copies _ _ _
  | burn pile n =>
    simp only [execute, Progress.map, destroyCards]
    split <;> exact .copies _ _ _
  | delay mode x turns =>
    simp only [execute]
    split <;> exact .queue _ _
  | castMore side distance =>
    simp only [execute, Frame.castMore]
    split
    · exact .nothing
    · split <;> exact .nothing
  | spendRepeat _ _ _ => exact .nothing

end Frame
end CardBattle
