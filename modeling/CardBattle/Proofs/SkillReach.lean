import Mathlib.Data.List.TakeWhile
import CardBattle.Proofs.Payments
import CardBattle.Proofs.Telegraph

/-!
# CardBattle.Proofs.SkillReach

How far a skill of an enemy reaches. The value of a skill is one number, so its slots are read as
hits, healing, gauge shifts and changes of the player's copies, and as nothing else: a slot of a kind
that takes several fields cannot be read and is passed over, and a slot that repeats ends the skill,
since enemies have no meter to pay from. The enemy puts no buff on anyone, queues nothing, echoes
nothing, and leaves the action points, the costs and the other enemies alone.

* `Event.isOfSkill`: what a skill tells.
* `Frame.runSlot_reach`: one slot of an enemy, `Battle.resolveSkill_reach`: a whole skill.
* `Skill.upToRepeat`: the part of a skill that runs.
* `Battle.skill_reach`: all of this for every skill in every state.
-/

namespace CardBattle

open Relation

/-! ## What is told -/

/-- Skills tell of hits, healing, expired buffs, gauges, and of draws and burnt copies. -/
def Event.isOfSkill : Event → Bool
  | .damaged _ _ | .healed _ _ | .buffExpired _ _ | .gaugesChanged _ _ => true
  | .cardsDrawn _ | .deckReshuffled | .cardsDestroyed _ _ => true
  | _ => false

namespace Battle

/-- Between two battles only such events are told. -/
abbrev TellsOfSkill : Battle → Battle → Prop := Logs fun e => e.isOfSkill = true

theorem setFighter_tells (b : Battle) (id : FighterId) (f : Fighter) :
    b.TellsOfSkill (b.setFighter id f) :=
  logs_of_events (events_setFighter b id f)

theorem emitExpired_tells (b : Battle) (id : FighterId) (kinds : List BuffKind) :
    b.TellsOfSkill (b.emitExpired id kinds) := by
  refine logs_emitAll fun e he => ?_
  obtain ⟨kind, _, rfl⟩ := List.mem_map.mp he
  rfl

theorem hurt_tells (target : FighterId) (x : Single) (b : Battle) :
    b.TellsOfSkill (b.hurt target x).2 := by
  unfold hurt
  split
  · exact .refl b
  · split
    · exact .refl b
    · split
      · exact ((setFighter_tells b _ _).trans (logs_emit rfl)).trans (emitExpired_tells _ _ _)
      · exact .refl b

theorem heal_tells (target : FighterId) (x : Single) (b : Battle) :
    b.TellsOfSkill (b.heal target x).2 := by
  unfold heal
  split
  · exact .refl b
  · split
    · dsimp only
      split
      · exact (setFighter_tells b _ _).trans (logs_emit rfl)
      · exact setFighter_tells b _ _
    · exact .refl b

theorem drainLife_tells (attacker : FighterId) (lost : Int) (b : Battle) :
    b.TellsOfSkill (b.drainLife attacker lost) := by
  unfold drainLife
  split
  · exact .refl b
  · split
    · exact .refl b
    · exact ((setFighter_tells b _ _).trans (emitExpired_tells _ _ _)).trans (heal_tells _ _ _)

theorem strike_tells (attacker target : FighterId) (x : Single) (b : Battle) :
    b.TellsOfSkill (b.strike attacker target x).2 := by
  have drains : ∀ amount : Single, b.TellsOfSkill
      (if 0 < (b.hurt target amount).1.lost && attacker != target then
        (b.hurt target amount).2.drainLife attacker (b.hurt target amount).1.lost
      else (b.hurt target amount).2) := by
    intro amount
    split
    · exact (hurt_tells target amount b).trans (drainLife_tells _ _ _)
    · exact hurt_tells target amount b
  exact drains _

theorem cleanse_tells (target : FighterId) (n : Nat) (b : Battle) :
    b.TellsOfSkill (b.cleanse target n) := by
  unfold cleanse
  split
  · exact .refl b
  · exact (setFighter_tells b _ _).trans (emitExpired_tells _ _ _)

theorem drawCards_tells (n : Nat) (b : Battle) : b.TellsOfSkill (b.drawCards n) := by
  have moved : ∀ p s, b.TellsOfSkill (b.setPiles p s) := fun _ _ => logs_of_events rfl
  unfold drawCards
  dsimp only
  split <;> split
  · exact (moved _ _).trans (logs_emit rfl)
  · exact moved _ _
  · exact ((moved _ _).trans (logs_emit rfl)).trans (logs_emit rfl)
  · exact (moved _ _).trans (logs_emit rfl)

theorem destroyCards_tells (pile : Pile) (n : Nat) (b : Battle) :
    b.TellsOfSkill (b.destroyCards pile n) := by
  have moved : ∀ p s, b.TellsOfSkill (b.setPiles p s) := fun _ _ => logs_of_events rfl
  unfold destroyCards
  dsimp only
  split
  · exact moved _ _
  · exact (moved _ _).trans (logs_emit rfl)

end Battle

/-! ## What is left alone -/

namespace Battle

/-- What a skill of the enemy at a place leaves alone, and how the rest can change: only events of
skills are told, the ledgers only lose entries, the queue stays as it is, and so do the action
points, the copies with their costs and all other enemies. -/
structure SkillReach (i : Nat) (b b' : Battle) : Prop where
  told : b.TellsOfSkill b'
  quiet : b.Quiet b'
  points : b'.player.actionPoints = b.player.actionPoints
  maxPoints : b'.player.maxActionPoints = b.player.maxActionPoints
  copies : b'.player.piles.all.Perm b.player.piles.all
  length : b'.enemies.length = b.enemies.length
  enemies : ∀ k, k ≠ i → b'.enemy? (.enemy k) = b.enemy? (.enemy k)

variable {i : Nat} {b b₁ b' : Battle}

theorem SkillReach.refl (i : Nat) (b : Battle) : b.SkillReach i b :=
  ⟨.refl b, .refl b, rfl, rfl, .refl _, rfl, fun _ _ => rfl⟩

theorem SkillReach.trans (h : SkillReach i b b₁) (h' : SkillReach i b₁ b') : SkillReach i b b' :=
  ⟨h.told.trans h'.told, h.quiet.trans h'.quiet, h'.points.trans h.points,
    h'.maxPoints.trans h.maxPoints, h'.copies.trans h.copies, h'.length.trans h.length,
    fun k other => (h'.enemies k other).trans (h.enemies k other)⟩

end Battle

namespace Frame

open Battle

variable {frame : Frame} {p : Progress} {e : Effect} {i : Nat}

theorem strikes_tells (caster : FighterId) (x : Single) (ts : List FighterId) (p : Progress) :
    p.battle.TellsOfSkill (ts.foldl (Progress.strike caster x) p).battle := by
  induction ts generalizing p with
  | nil => exact .refl _
  | cons t ts ih => exact (strike_tells caster t x p.battle).trans (ih (p.strike caster x t))

theorem execute_tells (caster : frame.caster = .enemy i) (source : frame.source = none)
    (quiet : e.isQuiet = true) : p.battle.TellsOfSkill (frame.execute mute p e).battle := by
  cases e with
  | damageTarget x =>
    simp only [execute]
    split
    · exact .refl _
    · exact strike_tells _ _ _ _
  | damageOpponents x => exact strikes_tells _ _ _ _
  | damageSelf x =>
    simp only [execute, Progress.map, hurtSelf]
    split
    · exact .refl _
    · exact hurt_tells _ _ _
  | healSelf x => exact heal_tells _ _ _
  | healSelfPercent x =>
    simp only [execute, Progress.map, healPercent]
    split
    · exact .refl _
    · exact heal_tells _ _ _
  | shiftGauge gauge delta =>
    have shifted : p.battle.TellsOfSkill (p.battle.shiftGauge gauge delta) := logs_of_events rfl
    exact shifted.trans (logs_emit rfl)
  | gainAction n =>
    simp only [execute, caster]
    exact .refl _
  | reduceCost n =>
    simp only [execute, source]
    exact .refl _
  | drawCards n => exact drawCards_tells n _
  | burn pile n => exact destroyCards_tells pile n _
  | cleanseSelf n => exact cleanse_tells _ _ _
  | applyBuff _ _ | castMore _ _ | delay _ _ _ | spendRepeat _ _ _ => cases quiet

/-- The action points are the player's own, and only an effect of the player changes them. -/
theorem points_execute (caster : frame.caster = .enemy i) :
    (frame.execute mute p e).battle.player.actionPoints = p.battle.player.actionPoints ∧
      (frame.execute mute p e).battle.player.maxActionPoints =
        p.battle.player.maxActionPoints := by
  by_cases means : e.part = .means
  · cases e with
    | shiftGauge gauge delta => cases gauge <;> exact ⟨rfl, rfl⟩
    | gainAction n =>
      have idle : frame.execute mute p (.gainAction n) = p := by simp only [execute, caster]
      rw [idle]
      exact ⟨rfl, rfl⟩
    | _ => cases means
  · obtain ⟨_, _, eq⟩ := (frame.execute_alters p e).exists_player_eq means
    rw [eq]
    exact ⟨rfl, rfl⟩

/-- Without a copy that resolves no cost can be lowered. -/
theorem copies_execute (source : frame.source = none) :
    (frame.execute mute p e).battle.player.piles.all.Perm p.battle.player.piles.all := by
  by_cases copies : e.part = .copies
  · cases e with
    | reduceCost n =>
      simp only [execute, source]
      exact .refl _
    | drawCards n =>
      have drawn := p.battle.player.piles.all_draw n p.battle.chance
      simp only [execute, Progress.map, Battle.drawCards]
      split <;> split <;> exact drawn
    | burn pile n =>
      have burnt := p.battle.player.piles.all_destroy pile n p.battle.chance
      simp only [execute, Progress.map, destroyCards]
      split <;> exact burnt
    | _ => cases copies
  · rw [((frame.execute_alters p e).copies_eq copies).1]

theorem execute_reach (caster : frame.caster = .enemy i) (source : frame.source = none)
    (quiet : e.isQuiet = true) : SkillReach i p.battle (frame.execute mute p e).battle where
  told := execute_tells caster source quiet
  quiet := execute_quiet frame p quiet
  points := (points_execute caster).1
  maxPoints := (points_execute caster).2
  copies := copies_execute source
  length := (frame.execute_alters p e).length_enemies
  enemies := by
    intro k other
    refine (frame.execute_alters p e).enemy? fun reached => ?_
    obtain own | player := reached_of_enemy caster p.battle e _ reached
    · exact other (FighterId.enemy.inj own)
    · cases player

theorem runSlots_reach (caster : frame.caster = .enemy i) (source : frame.source = none)
    {slots : List Slot}
    (quiet : ∀ s ∈ slots, ∀ e, Effect.read s.kind s.value = .ok (some e) → e.isQuiet = true)
    (p : Progress) : SkillReach i p.battle (frame.runSlots mute slots p).battle := by
  unfold runSlots
  induction slots generalizing p with
  | nil => exact .refl i _
  | cons s ss ih =>
    obtain ⟨first, rest⟩ := List.forall_mem_cons.mp quiet
    have ran : SkillReach i p.battle (frame.runSlot mute p s).battle := by
      rw [runSlot_eq_execute]
      cases found : frame.effect? p s with
      | none => exact .refl i _
      | some e => exact execute_reach caster source (first e (read_of_effect? found))
    exact ran.trans (ih rest _)

end Frame

/-! ## What does not run -/

/-- The kinds whose values have several fields, those that repeat aside. -/
def EffectKind.isCompound : EffectKind → Bool
  | .buffSelf | .buffTarget | .buffArea | .castMore | .delaySingle | .delayArea => true
  | _ => false

namespace Effect

/-- Only the empty kind reads as no effect. -/
theorem kind_of_read_none {kind : EffectKind} {text : String} (h : read kind text = .ok none) :
    kind = .none := by
  rw [read] at h
  generalize Text.trim text.toList = value at h
  cases kind with
  | none => rfl
  | _ =>
    obtain ⟨_, _, eq⟩ := map_eq_ok_iff.mp h
    cases eq

theorem isCompound_of_isQuiet {e : Effect} (quiet : e.isQuiet = true) {kind : EffectKind}
    (own : kind ∈ e.kinds) : kind.isCompound = false := by
  cases e with
  | shiftGauge gauge delta =>
    cases gauge <;> obtain rfl | rfl := List.mem_pair.mp own <;> rfl
  | burn pile n =>
    cases pile with
    | discard => cases own
    | _ =>
      rw [List.mem_singleton.mp own]
      rfl
  | applyBuff _ _ | castMore _ _ | delay _ _ _ | spendRepeat _ _ _ => cases quiet
  | _ =>
    rw [List.mem_singleton.mp own]
    rfl

end Effect

/-- No slot of such a kind can be read, so it is passed over. -/
theorem Skill.exists_fault {skill : Skill} {attack : Int} {s : Slot} (hs : s ∈ skill.slots attack)
    (compound : s.kind.isCompound = true) :
    ∃ fault, Effect.read s.kind s.value = .error fault := by
  cases read : Effect.read s.kind s.value with
  | error fault => exact ⟨fault, rfl⟩
  | ok effect =>
    exfalso
    cases effect with
    | none =>
      rw [Effect.kind_of_read_none read] at compound
      cases compound
    | some e =>
      have single := Effect.isCompound_of_isQuiet (Effect.isQuiet_of_mem_slots hs read)
        (Effect.mem_kinds_of_read read)
      rw [single] at compound
      cases compound

theorem Frame.runSlot_of_fault {s : Slot} {fault : EffectFault}
    (h : Effect.read s.kind s.value = .error fault) (echo : Echo) (frame : Frame) (p : Progress) :
    frame.runSlot echo p s = p := by
  unfold runSlot
  rw [h]
  split
  · rfl
  · split <;> rfl

/-- The part of a skill before the first effect that repeats. -/
def Skill.upToRepeat (skill : Skill) : Skill :=
  { skill with
    effects :=
      { items := skill.effects.items.takeWhile fun e => e.kind != .spendRepeat
        length_le := (List.takeWhile_sublist _).length_le.trans skill.effects.length_le } }

namespace Frame

/-- A slot reads nothing of the other slots, unless something is echoed. -/
theorem runSlot_slots (frame : Frame) (slots : List Slot) (p : Progress) (s : Slot) :
    Frame.runSlot mute { frame with slots } p s = frame.runSlot mute p s := by
  have same : Frame.effect? { frame with slots } p s = frame.effect? p s := rfl
  rw [runSlot_eq_execute, runSlot_eq_execute, same]
  cases frame.effect? p s with
  | none => rfl
  | some e => cases e <;> rfl

theorem runSlots_slots (frame : Frame) (slots ss : List Slot) (p : Progress) :
    Frame.runSlots mute { frame with slots } ss p = frame.runSlots mute ss p := by
  unfold runSlots
  induction ss generalizing p with
  | nil => rfl
  | cons s ss ih => rw [List.foldl_cons, List.foldl_cons, runSlot_slots, ih]

end Frame

namespace Skill

theorem slots_upToRepeat (skill : Skill) (attack : Int) :
    skill.upToRepeat.slots attack = (skill.slots attack).takeWhile fun s => !Frame.repeats s := by
  simp only [slots, upToRepeat, List.takeWhile_map]
  congr 1

theorem upToRepeat_upToRepeat (skill : Skill) : skill.upToRepeat.upToRepeat = skill.upToRepeat := by
  have same : skill.upToRepeat.upToRepeat.effects = skill.upToRepeat.effects :=
    UpTo.ext_items List.takeWhile_idem
  simp only [upToRepeat] at same ⊢
  rw [same]

end Skill

namespace Battle

open CardBattle.Frame

/-- A skill runs the slots before the first that repeats, once, and nothing else. -/
theorem resolveSkill_eq_runSlots (i : Nat) (skill : Skill) (attack : Int) (b : Battle) :
    b.resolveSkill (.enemy i) skill attack =
      let p := Frame.runSlots mute { caster := .enemy i, target := some .player, slots := [] }
        (skill.upToRepeat.slots attack) { battle := b, killed := false }
      (p.killed, p.battle) := by
  have plain : ∀ frame : Frame, frame.slots = skill.slots attack →
      frame.plainSlots = skill.upToRepeat.slots attack := by
    intro frame slots
    rw [plainSlots, slots, Skill.slots_upToRepeat]
  simp only [resolveSkill, runCard]
  rw [runSlots_of_source rfl, plain _ rfl,
    ← runSlots_slots { caster := .enemy i, target := some .player, slots := [] }
      (skill.slots attack)]
  split
  · rfl
  · rw [runRepeatSlot_of_enemy rfl]

theorem resolveSkill_reach (i : Nat) (skill : Skill) (attack : Int) (b : Battle) :
    SkillReach i b (b.resolveSkill (.enemy i) skill attack).2 := by
  let frame : Frame := { caster := .enemy i, target := some .player, slots := [] }
  have quiet : ∀ s ∈ skill.upToRepeat.slots attack, ∀ e,
      Effect.read s.kind s.value = .ok (some e) → e.isQuiet = true :=
    fun _ hs _ read => Effect.isQuiet_of_mem_slots hs read
  have reach := runSlots_reach (show frame.caster = .enemy i from rfl) rfl quiet
    { battle := b, killed := false }
  rw [resolveSkill_eq_runSlots]
  exact reach

/-- Every skill, with whatever attack and in every state: it reaches no further than skills do, its
slots of several fields are passed over wherever they run, and of its slots only those before the
first that repeats matter. -/
theorem skill_reach (b : Battle) (i : Nat) (skill : Skill) (attack : Int) :
    SkillReach i b (b.resolveSkill (.enemy i) skill attack).2 ∧
      (∀ s ∈ skill.slots attack, s.kind.isCompound = true →
        ∀ (echo : Frame.Echo) (frame : Frame) (p : Progress), frame.runSlot echo p s = p) ∧
      b.resolveSkill (.enemy i) skill attack =
        b.resolveSkill (.enemy i) skill.upToRepeat attack := by
  refine ⟨resolveSkill_reach i skill attack b, ?_, ?_⟩
  · intro s hs compound echo frame p
    obtain ⟨fault, read⟩ := Skill.exists_fault hs compound
    exact runSlot_of_fault read echo frame p
  · rw [resolveSkill_eq_runSlots, resolveSkill_eq_runSlots, Skill.upToRepeat_upToRepeat]

end Battle
end CardBattle
