import CardBattle.Proofs.KillFlag
import CardBattle.Proofs.Round

/-!
# CardBattle.Proofs.Passages

The course of a battle in its smallest pieces. In a passage one fighter changes, or none does, or a
hook runs at the boundary of a fighter's turn. Cards, skills and delayed hits run no hook.

* `Fighter.Incident`: the changes of a fighter that are no turn start.
* `Passage`, `Passage.Real`: what a piece of a battle can be.
* `Battle.Chronicle`: the passages that lead from one state to another.
* `Battle.Hooked`: the hooks between two states.
* `Frame.execute_hookless`, `hookless_law`: effects, and the visits of a resolution.
* `Battle.resolveCard_hookless`, `resolveSkill_hookless`, `fireDelayed_hookless`: what runs no hook.
-/

namespace CardBattle

/-! ## Passages -/

/-- What a ledger can be used for between two turn starts, before its inert entries are pruned. -/
inductive Ledger.Spend (l : Ledger) : Ledger → Prop where
  | idle : Spend l l
  | swift : Spend l l.takeSwift.2
  | drain : Spend l l.drain.2

/-- One change of a fighter that is no turn start, with the events that tell it. -/
inductive Fighter.Incident (id : FighterId) (f : Fighter) : List Event → Fighter → Prop where
  | hit (x : Single) (alive : f.isAlive = true) :
      Incident id f (.damaged id (f.takeHit x).1 :: (f.takeHit x).2.1.map (.buffExpired id))
        (f.takeHit x).2.2
  | mend (x : Single) (alive : f.isAlive = true) :
      Incident id f (if 0 < (f.mend x).1 then [.healed id (f.mend x).1] else []) (f.mend x).2
  | apply {spec : BuffSpec} {buff : Buff} (h : spec.toBuff = .ok buff) :
      Incident id f
        [.buffApplied id buff.kind
          (match Ledger.entry? (f.buffs.add buff).2 buff.kind with
            | some e => e.stack
            | none => buff.stack)]
        { f with buffs := (f.buffs.add buff).2 }
  | cleanse (n : Nat) :
      Incident id f ((f.buffs.cleanse n).1.map (.buffExpired id))
        { f with buffs := (f.buffs.cleanse n).2 }
  | settle {l : Ledger} (h : f.buffs.Spend l) :
      Incident id f (l.prune.1.map (.buffExpired id)) { f with buffs := l.prune.2 }

theorem Ledger.Spend.use {l l' : Ledger} (h : l.Spend l') : l.Use l' := by
  cases h with
  | idle => exact .idle
  | swift => exact .swift
  | drain => exact .drain

theorem Fighter.Incident.change {id : FighterId} {f f' : Fighter} {es : List Event}
    (h : f.Incident id es f') : f.Change id es f' := by
  cases h with
  | hit x alive => exact .hit x alive
  | mend x alive => exact .mend x alive
  | apply h => exact .apply h
  | cleanse n => exact .cleanse n
  | settle h => exact .settle h.use

/-- What runs at the boundaries of a fighter's turn. -/
inductive Hook where
  | turnStart (owner : FighterId)
  | turnEnd (owner : FighterId)
deriving DecidableEq

/-- A piece of a battle: the hook that runs there, if one does, and what is told, between two
states. -/
structure Passage where
  hook? : Option Hook := none
  before : Battle
  told : List Event := []
  after : Battle

/-- One fighter changes, none does, or a hook runs. The passage of a turn end is the moment at which
it is settled what the buffs will do; what they do then are passages of their own. -/
inductive Passage.Real : Passage → Prop where
  | incident {b : Battle} {id : FighterId} {f f' : Fighter} {es : List Event}
      (hf : b.fighter? id = some f) (h : f.Incident id es f') :
      Real { before := b, told := es, after := (b.setFighter id f').emitAll es }
  | aside {b b' : Battle} {es : List Event} (events : b'.events.toList = b.events.toList ++ es)
      (quiet : ∀ e ∈ es, e.topic ≠ .fighters) (same : ∀ id, b'.fighter? id = b.fighter? id) :
      Real { before := b, told := es, after := b' }
  | turnStart {b : Battle} {id : FighterId} {f : Fighter} (hf : b.fighter? id = some f) :
      Real
        { hook? := some (.turnStart id), before := b
          told := f.buffs.turnStart.2.1.map (.buffExpired id), after := (b.startBuffs id).2 }
  | turnEnd {b : Battle} {id : FighterId} :
      Real { hook? := some (.turnEnd id), before := b, after := b }

namespace Passage

/-- The hook of a passage, with the state that it finds. -/
def hooked? (p : Passage) : Option (Hook × Battle) := p.hook?.map fun hook => (hook, p.before)

end Passage

namespace Battle

open Passage

theorem startBuffs_eq {b : Battle} {id : FighterId} {f : Fighter} (hf : b.fighter? id = some f) :
    (b.startBuffs id).2 =
      (b.setFighter id { f with buffs := f.buffs.turnStart.2.2 }).emitAll
        (f.buffs.turnStart.2.1.map (.buffExpired id)) := by
  simp only [startBuffs, hf, emitExpired]

/-- The passages that lead from one state to another. In between the log may be drained. -/
inductive Chronicle (b : Battle) : List Passage → Battle → Prop where
  | start : Chronicle b [] b
  | next {ps : List Passage} {p : Passage} (h : Chronicle b ps p.before) (real : p.Real) :
      Chronicle b (ps ++ [p]) p.after
  | drained {ps : List Passage} {b' : Battle} (h : Chronicle b ps b') : Chronicle b ps b'.drain.2

/-- From `b` to `b'` there are passages with these hooks, and the log tells all of them. -/
def Hooked (b : Battle) (hooks : List (Hook × Battle)) (b' : Battle) : Prop :=
  ∃ ps, b.Chronicle ps b' ∧ ps.filterMap hooked? = hooks ∧
    b'.events.toList = b.events.toList ++ ps.flatMap told

variable {b b₁ b' : Battle} {hooks hooks₁ : List (Hook × Battle)}

theorem Chronicle.append {ps qs : List Passage} (h : b.Chronicle ps b₁)
    (h' : b₁.Chronicle qs b') : b.Chronicle (ps ++ qs) b' := by
  induction h' with
  | start =>
    rw [List.append_nil]
    exact h
  | next _ real ih =>
    rw [← List.append_assoc]
    exact .next ih real
  | drained _ ih => exact .drained ih

namespace Hooked

theorem refl (b : Battle) : b.Hooked [] b := ⟨[], .start, rfl, by simp⟩

theorem append (h : b.Hooked hooks b₁) (h' : b₁.Hooked hooks₁ b') :
    b.Hooked (hooks ++ hooks₁) b' := by
  obtain ⟨ps, chronicle, rfl, events⟩ := h
  obtain ⟨qs, chronicle', rfl, events'⟩ := h'
  refine ⟨ps ++ qs, chronicle.append chronicle', List.filterMap_append, ?_⟩
  rw [events', events, List.flatMap_append, List.append_assoc]

/-- Before the first hook. -/
theorem trans (h : b.Hooked [] b₁) (h' : b₁.Hooked hooks b') : b.Hooked hooks b' := h.append h'

/-- After the last hook. -/
theorem still (h : b.Hooked hooks b₁) (h' : b₁.Hooked [] b') : b.Hooked hooks b' := by
  have whole := h.append h'
  rwa [List.append_nil] at whole

/-- A single passage. -/
theorem single {p : Passage} (real : p.Real)
    (events : p.after.events.toList = p.before.events.toList ++ p.told) :
    p.before.Hooked p.hooked?.toList p.after := by
  refine ⟨[p], Chronicle.start.next real, ?_, ?_⟩
  · cases h : p.hooked? <;> simp [h]
  · simpa using events

theorem foldl {α : Type} {act : Battle → α → Battle} (h : ∀ b a, Hooked b [] (act b a))
    (as : List α) (b : Battle) : b.Hooked [] (as.foldl act b) := by
  induction as generalizing b with
  | nil => exact .refl b
  | cons a as ih => exact (h b a).trans (ih _)

end Hooked

theorem hookless_aside (es : List Event) (events : b'.events.toList = b.events.toList ++ es)
    (quiet : ∀ e ∈ es, e.topic ≠ .fighters) (same : ∀ id, b'.fighter? id = b.fighter? id) :
    b.Hooked [] b' :=
  .single (.aside events quiet same) events

theorem hookless_same (events : b'.events = b.events)
    (same : ∀ id, b'.fighter? id = b.fighter? id) : b.Hooked [] b' :=
  hookless_aside [] (by rw [events, List.append_nil]) nofun same

theorem hookless_emit {e : Event} (h : e.topic ≠ .fighters) (b : Battle) :
    b.Hooked [] (b.emit e) :=
  hookless_aside [e] Array.toList_push (by simpa using h) fun _ => rfl

theorem hookless_incident {id : FighterId} {f f' : Fighter} {es : List Event}
    (hf : b.fighter? id = some f) (h : f.Incident id es f') :
    b.Hooked [] ((b.setFighter id f').emitAll es) :=
  .single (.incident hf h) (by rw [events_emitAll, events_setFighter])

theorem turnStart_hooked {id : FighterId} {f : Fighter} (hf : b.fighter? id = some f) :
    b.Hooked [(.turnStart id, b)] (b.startBuffs id).2 :=
  .single (.turnStart hf) (by rw [startBuffs_eq hf, events_emitAll, events_setFighter])

theorem turnEnd_hooked (b : Battle) (id : FighterId) : b.Hooked [(.turnEnd id, b)] b :=
  .single .turnEnd (List.append_nil _).symm

/-! ## Fighters -/

theorem hurt_hookless (target : FighterId) (x : Single) (b : Battle) :
    b.Hooked [] (b.hurt target x).2 := by
  simp only [hurt]
  split
  · exact .refl b
  · split
    · exact .refl b
    · rename_i f hf
      split
      · rename_i alive
        exact hookless_incident hf (.hit x alive)
      · exact .refl b

theorem heal_hookless (target : FighterId) (x : Single) (b : Battle) :
    b.Hooked [] (b.heal target x).2 := by
  simp only [heal]
  split
  · exact .refl b
  · rename_i f hf
    split
    · rename_i alive
      have mended := hookless_incident hf (.mend x alive)
      by_cases restored : 0 < (f.mend x).1
      · simp only [restored, if_true] at mended ⊢
        exact mended
      · simp only [restored, if_false] at mended ⊢
        exact mended
    · exact .refl b

theorem healPercent_hookless (target : FighterId) (x : Single) (b : Battle) :
    b.Hooked [] (b.healPercent target x) := by
  simp only [healPercent]
  split
  · exact .refl b
  · exact heal_hookless _ _ _

theorem drainLife_hookless (attacker : FighterId) (lost : Int) (b : Battle) :
    b.Hooked [] (b.drainLife attacker lost) := by
  simp only [drainLife]
  split
  · exact .refl b
  · rename_i f hf
    split
    · exact .refl b
    · rename_i percent l hl
      have spent : f.buffs.Spend l := by
        have drained := Ledger.Spend.drain (l := f.buffs)
        rw [hl] at drained
        exact drained
      exact (hookless_incident hf (.settle spent)).trans (heal_hookless _ _ _)

theorem strike_hookless (attacker target : FighterId) (base : Single) (b : Battle) :
    b.Hooked [] (b.strike attacker target base).2 := by
  have drains : ∀ x : Single, b.Hooked []
      (if 0 < (b.hurt target x).1.lost && attacker != target then
        (b.hurt target x).2.drainLife attacker (b.hurt target x).1.lost
      else (b.hurt target x).2) := by
    intro x
    split
    · exact (hurt_hookless _ _ _).trans (drainLife_hookless _ _ _)
    · exact hurt_hookless _ _ _
  exact drains _

theorem hurtSelf_hookless (caster : FighterId) (x : Single) (b : Battle) :
    b.Hooked [] (b.hurtSelf caster x) := by
  simp only [hurtSelf]
  split
  · exact .refl b
  · exact hurt_hookless _ _ _

theorem cleanse_hookless (target : FighterId) (n : Nat) (b : Battle) :
    b.Hooked [] (b.cleanse target n) := by
  simp only [cleanse]
  split
  · exact .refl b
  · rename_i f hf
    exact hookless_incident hf (.cleanse n)

theorem applyBuff_hookless {spec : BuffSpec} {buff : Buff} (made : spec.toBuff = .ok buff)
    (b : Battle) (target : FighterId) : b.Hooked [] (applyBuff buff b target) := by
  simp only [applyBuff]
  split
  · exact .refl b
  · rename_i f hf
    exact hookless_incident hf (.apply made)

/-! ## Everything else -/

theorem hookless_piles (pool : List Card) {p : Piles} {s : Chance.Stream} {es : List Event}
    (h : b.player.piles.Change pool b.chance es p s) :
    b.Hooked [] ((b.setPiles p s).emitAll es) := by
  refine hookless_aside es (events_emitAll _ es) ?_ fun id => ?_
  · intro e he
    rw [h.topic e he]
    exact nofun
  · rw [fighter?_emitAll]
    exact fighter?_congr rfl rfl id

theorem drawCards_hookless (n : Nat) (b : Battle) : b.Hooked [] (b.drawCards n) := by
  have h := hookless_piles (b := b) [] (.draw n)
  simp only [drawCards]
  generalize b.player.piles.draw n b.chance = r at h ⊢
  obtain ⟨⟨ids, reshuffled⟩, p, s⟩ := r
  cases reshuffled <;> cases ids <;> exact h

theorem destroyCards_hookless (pile : Pile) (n : Nat) (b : Battle) :
    b.Hooked [] (b.destroyCards pile n) := by
  have h := hookless_piles (b := b) [] (.destroy pile n)
  simp only [destroyCards]
  generalize b.player.piles.destroy pile n b.chance = r at h ⊢
  obtain ⟨ids, p, s⟩ := r
  cases ids <;> exact h

theorem grantCards_hookless (n : Nat) (b : Battle) : b.Hooked [] (b.grantCards n) := by
  have h := hookless_piles (b := b) b.pool (.grant n)
  simp only [grantCards]
  generalize b.player.piles.grant b.pool n b.chance = r at h ⊢
  obtain ⟨ids, p, s⟩ := r
  cases ids <;> exact h

theorem reduceCost_hookless (copy : Nat) (amount : Int) (b : Battle) :
    b.Hooked [] (b.reduceCost copy amount) := by
  simp only [reduceCost]
  split
  · exact .refl b
  · rename_i cost p hp
    exact hookless_piles (b := b) [] (.reduceCost hp)

/-- Changes of gauges, action points and piles, which one event tells. -/
theorem hookless_player {p : Player} {e : Event} (fighter : p.fighter = b.player.fighter)
    (h : e.topic ≠ .fighters) : b.Hooked [] ({ b with player := p }.emit e) :=
  hookless_aside [e] Array.toList_push (by simpa using h) (fighter?_congr fighter rfl)

theorem shiftGauge_hookless (gauge : Gauge) (n : Int) (b : Battle) :
    b.Hooked [] (b.shiftGauge gauge n).emitGauges :=
  hookless_player (fighter_shift b.player gauge n) (by simp [Event.topic])

theorem hookless_budget {p : Player} (h : b.player.Budget p) :
    b.Hooked [] { b with player := p }.emitActionPoints := by
  obtain ⟨n, rfl⟩ := h.exists_eq
  exact hookless_player rfl (by simp [Event.topic])

theorem pay?_hookless {caster : FighterId} {meter : Meter} {cost : Int}
    (h : b.pay? caster meter cost = some b') : b.Hooked [] b' := by
  simp only [pay?] at h
  split at h
  · cases h
  · split at h
    · split at h <;> cases h
      exact shiftGauge_hookless _ _ _
    · split at h <;> cases h
      exact shiftGauge_hookless _ _ _
    · split at h
      · cases h
      · rename_i spent
        cases h
        exact hookless_budget (.spend spent)

theorem takeSwift_hookless (b : Battle) : b.Hooked [] b.takeSwift.2 := by
  simp only [takeSwift]
  split
  · exact .refl b
  · rename_i reach l hl
    have spent : b.player.fighter.buffs.Spend l := by
      have taken := Ledger.Spend.swift (l := b.player.fighter.buffs)
      rw [hl] at taken
      exact taken
    have there : b.fighter? .player = some b.player.fighter := rfl
    exact hookless_incident there (.settle spent)

theorem applyShifts_hookless (card : Card) (b : Battle) : b.Hooked [] (applyShifts card b) := by
  have shifted : (Player.shift (b.player.shift .angel card.angelShift) .demon
      card.demonShift).fighter = b.player.fighter :=
    (fighter_shift _ _ _).trans (fighter_shift _ _ _)
  simp only [applyShifts]
  split
  · exact .refl b
  · exact hookless_player shifted (by simp [Event.topic])

theorem enqueue_hookless (h : DelayedHit) (b : Battle) : b.Hooked [] (b.enqueue h) := by
  have told : b.Hooked [] (b.emit (.delayedQueued h.caster h.damage h.remaining)) :=
    hookless_emit (by simp [Event.topic]) b
  exact told.trans (hookless_same rfl (fighter?_congr rfl rfl))

end Battle

/-! ## Resolutions -/

open Battle

theorem strikes_hookless (caster : FighterId) (x : Single) (targets : List FighterId)
    (p : Progress) :
    p.battle.Hooked [] (targets.foldl (Progress.strike caster x) p).battle := by
  induction targets generalizing p with
  | nil => exact .refl _
  | cons t ts ih => exact (strike_hookless caster t x p.battle).trans (ih (p.strike caster x t))

/-- No effect runs a hook. -/
theorem Frame.execute_hookless (frame : Frame) (p : Progress) (e : Effect) :
    p.battle.Hooked [] (frame.execute mute p e).battle := by
  cases e with
  | damageTarget x =>
    simp only [execute]
    split
    · exact .refl _
    · exact strike_hookless _ _ _ _
  | damageOpponents x => exact strikes_hookless _ _ _ _
  | damageSelf x => exact hurtSelf_hookless _ _ _
  | healSelf x => exact heal_hookless _ _ _
  | healSelfPercent x => exact healPercent_hookless _ _ _
  | shiftGauge gauge delta => exact shiftGauge_hookless _ _ _
  | gainAction n =>
    simp only [execute]
    split
    · exact .refl _
    · exact hookless_budget (.gain n)
  | reduceCost n =>
    simp only [execute]
    split
    · exact .refl _
    · exact reduceCost_hookless _ _ _
  | drawCards n => exact drawCards_hookless n _
  | burn pile n => exact destroyCards_hookless pile n _
  | cleanseSelf n => exact cleanse_hookless _ _ _
  | applyBuff scope spec =>
    simp only [execute]
    split
    · exact .refl _
    · rename_i buff made
      exact .foldl (applyBuff_hookless made) _ _
  | castMore side distance =>
    have still : frame.castMore mute side distance p = p := by
      simp only [castMore]
      split
      · rfl
      · split <;> rfl
    simp only [execute, still]
    exact .refl _
  | delay mode x turns =>
    simp only [execute]
    split
    · exact .refl _
    · exact enqueue_hookless _ _
  | spendRepeat _ _ _ => exact .refl _

theorem Visit.hookless (v : Visit) : v.before.battle.Hooked [] v.after.battle := by
  rw [Visit.after, Frame.runSlot_eq_execute]
  cases v.frame.effect? v.before v.slot with
  | none => exact .refl _
  | some e => exact v.frame.execute_hookless v.before e

/-- No slot of a resolution runs a hook, and neither does a payment or an echo. -/
theorem hookless_law : VisitLaw fun p _ q => p.battle.Hooked [] q.battle where
  refl p := .refl p.battle
  append := Hooked.trans
  visit := Visit.hookless
  paid := pay?_hookless
  told _ := hookless_emit (by simp [Event.topic]) _

namespace Battle

theorem resolveCard_hookless (c : PlayedCopy) (target : Option FighterId) (b : Battle) :
    b.Hooked [] (b.resolveCard c target).2 :=
  (takeSwift_hookless b).trans
    (hookless_law.played (fun card p => applyShifts_hookless card p.battle) b c target)

theorem resolveSkill_hookless (enemy : FighterId) (skill : Skill) (attack : Int) (b : Battle) :
    b.Hooked [] (b.resolveSkill enemy skill attack).2 := by
  have echoes := hookless_law.echo b.settings.maxChainDepth
  exact @VisitLaw.card _ _ (Frame.echoVisits b.settings.maxChainDepth) hookless_law echoes _
    { battle := b, killed := false }

theorem hurtAll_hookless (targets : List FighterId) (x : Single) (b : Battle) :
    b.Hooked [] (b.hurtAll targets x) :=
  .foldl (fun b t => hurt_hookless t x b) targets b

theorem land_hookless (b : Battle) (h : DelayedHit) : b.Hooked [] (b.land h) := by
  have hits : ∀ ts : List FighterId, b.Hooked []
      ((b.emit (.delayedFired h.caster h.damage)).hurtAll ts h.damage) := by
    intro ts
    have fired : b.Hooked [] (b.emit (.delayedFired h.caster h.damage)) :=
      hookless_emit (by simp [Event.topic]) b
    exact fired.trans (hurtAll_hookless ts h.damage _)
  simp only [land]
  split
  · split
    · exact .refl b
    · split
      · exact hits _
      · exact .refl b
  · split
    · exact hits _
    · exact hits _

theorem fireDelayed_hookless (b : Battle) : b.Hooked [] b.fireDelayed := by
  have waited : b.Hooked [] { b with delayed := b.delayed.tick.2 } :=
    hookless_same rfl (fighter?_congr rfl rfl)
  exact waited.trans (.foldl land_hookless b.delayed.tick.1 _)

end Battle
end CardBattle
