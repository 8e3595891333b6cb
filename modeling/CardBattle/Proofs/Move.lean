import CardBattle.Battle.Play
import CardBattle.Battle.Setup
import Mathlib.Logic.Relation

/-!
# CardBattle.Proofs.Move

What can happen in a battle, said once. A `Move` is one change of the state together with the
events that tell it; whatever a card, a skill, a buff or the queue of delayed hits does is a
chain of moves. A `Stage` is a move or one of the changes that the turn order makes, and a `Step`
is a stage or the begin or end of a play. An invariant of the whole game has to be checked for
the steps only.

* `Fighter.Change`, `Piles.Change`: what one move can do to a fighter and to the piles.
* `Deed`, `Deeds`: the moves that a single slot makes, apart from echoes. They grant no copies.
* `Touch`, `Touches`: changes of some fighters. Hits, healing, buffs and the hooks of the turns
  consist of them.
* `Move`, `Moves`: chains of moves. `resolveCard_moves`, `resolveSkill_moves`, `endBuffs_moves`
  and `fireDelayed_moves` cover the resolutions and the turn hooks.
* `Stage`, `Stages`: `beginPlayerTurn_stages`, `endPlayerTurn_stages` and `begin_stages` cover
  the turns.
* `Step`, `Steps`: with the way of a played copy, all there is.
-/

namespace CardBattle

open Relation

/-- What an event is about. A remark tells no change of the state that events can tell. -/
inductive Event.Topic where
  | order
  | fighters
  | copies
  | means
  | intents
  | remark
deriving DecidableEq

def Event.topic : Event → Topic
  | .phaseChanged _ | .turnStarted _ | .battleEnded _ => .order
  | .damaged _ _ | .healed _ _ | .buffApplied _ _ _ | .buffExpired _ _ => .fighters
  | .cardPlayed _ _ _ | .cardsDrawn _ | .deckReshuffled | .cardsDiscarded _ => .copies
  | .cardsDestroyed _ _ | .cardsGranted _ | .costReduced _ _ => .copies
  | .gaugesChanged _ _ | .actionPointsChanged _ => .means
  | .intentChosen _ _ | .skillUsed _ _ => .intents
  | .cardEchoed _ _ | .delayedQueued _ _ _ | .delayedFired _ _ => .remark

/-- The fighter that an event is about. -/
def Event.subject? : Event → Option FighterId
  | .damaged id _ | .healed id _ | .buffApplied id _ _ | .buffExpired id _ => some id
  | _ => none

theorem Event.topic_of_subject? {e : Event} {id : FighterId} (h : e.subject? = some id) :
    e.topic = .fighters := by
  cases e <;> first | rfl | cases h

/-- What becomes of a ledger before its inert entries are pruned. -/
inductive Ledger.Use (l : Ledger) : Ledger → Prop where
  | idle : Use l l
  | turnStart : Use l ⟨l.entries.map turnStarted⟩
  | swift : Use l l.takeSwift.2
  | drain : Use l l.drain.2

/-- One change of a fighter, with the events that tell it. -/
inductive Fighter.Change (id : FighterId) (f : Fighter) : List Event → Fighter → Prop where
  | hit (x : Single) (alive : f.isAlive = true) :
      Change id f (.damaged id (f.takeHit x).1 :: (f.takeHit x).2.1.map (.buffExpired id))
        (f.takeHit x).2.2
  | mend (x : Single) (alive : f.isAlive = true) :
      Change id f (if 0 < (f.mend x).1 then [.healed id (f.mend x).1] else []) (f.mend x).2
  | apply {spec : BuffSpec} {buff : Buff} (h : spec.toBuff = .ok buff) :
      Change id f
        [.buffApplied id buff.kind
          (match Ledger.entry? (f.buffs.add buff).2 buff.kind with
            | some e => e.stack
            | none => buff.stack)]
        { f with buffs := (f.buffs.add buff).2 }
  | cleanse (n : Nat) :
      Change id f ((f.buffs.cleanse n).1.map (.buffExpired id))
        { f with buffs := (f.buffs.cleanse n).2 }
  | settle {l : Ledger} (h : f.buffs.Use l) :
      Change id f (l.prune.1.map (.buffExpired id)) { f with buffs := l.prune.2 }

theorem Fighter.Change.subject {id : FighterId} {f f' : Fighter} {es : List Event}
    (h : f.Change id es f') : ∀ e ∈ es, e.subject? = some id := by
  have expired : ∀ kinds : List BuffKind, ∀ e ∈ kinds.map (Event.buffExpired id),
      e.subject? = some id := by
    intro kinds e he
    obtain ⟨k, _, rfl⟩ := List.mem_map.mp he
    rfl
  cases h with
  | hit x _ =>
    intro e he
    rcases List.mem_cons.mp he with rfl | he
    · rfl
    · exact expired _ e he
  | mend x _ => split <;> simp [Event.subject?]
  | apply _ => simp [Event.subject?]
  | cleanse n => exact expired _
  | settle _ => exact expired _

theorem Fighter.Change.topic {id : FighterId} {f f' : Fighter} {es : List Event}
    (h : f.Change id es f') : ∀ e ∈ es, e.topic = .fighters :=
  fun e he => Event.topic_of_subject? (h.subject e he)

/-- What is told about copies: nothing, if there are none. -/
def Event.ofCopies (tell : List Nat → Event) (ids : List Nat) : List Event :=
  if ids.isEmpty then [] else [tell ids]

/-- A reshuffle is told before the copies that were drawn, whenever it happened. -/
def Drawn.events (d : Drawn) : List Event :=
  (if d.reshuffled then [.deckReshuffled] else []) ++ Event.ofCopies .cardsDrawn d.ids

/-- One change of the piles while a phase lasts, with the events that tell it. -/
inductive Piles.Change {σ : Type} [Chance.Generator σ] (pool : List Card) (p : Piles) (s : σ) :
    List Event → Piles → σ → Prop where
  | draw (n : Nat) : Change pool p s (p.draw n s).1.events (p.draw n s).2.1 (p.draw n s).2.2
  | grant (n : Nat) :
      Change pool p s (Event.ofCopies .cardsGranted (p.grant pool n s).1) (p.grant pool n s).2.1
        (p.grant pool n s).2.2
  | destroy (pile : Pile) (n : Nat) :
      Change pool p s (Event.ofCopies (.cardsDestroyed pile) (p.destroy pile n s).1)
        (p.destroy pile n s).2.1 (p.destroy pile n s).2.2
  | reduceCost {copy : Nat} {amount cost : Int} {p' : Piles}
      (h : p.reduceCost? copy amount = some (cost, p')) :
      Change pool p s [.costReduced copy cost] p' s

theorem Event.topic_ofCopies {tell : List Nat → Event} {t : Topic}
    (h : ∀ ids, (tell ids).topic = t) (ids : List Nat) : ∀ e ∈ ofCopies tell ids, e.topic = t := by
  simp only [ofCopies]
  split <;> simp [h]

theorem Piles.Change.topic {σ : Type} [Chance.Generator σ] {pool : List Card} {p p' : Piles}
    {s s' : σ} {es : List Event} (h : p.Change pool s es p' s') : ∀ e ∈ es, e.topic = .copies := by
  cases h with
  | draw n =>
    intro e he
    rcases List.mem_append.mp he with he | he
    · split at he
      · rw [List.mem_singleton.mp he]
        rfl
      · cases he
    · exact Event.topic_ofCopies (fun _ => rfl) _ e he
  | grant n => exact Event.topic_ofCopies (fun _ => rfl) _
  | destroy pile n => exact Event.topic_ofCopies (fun _ => rfl) _
  | reduceCost _ => simp [Event.topic]

/-- A played copy goes into play and out of it. -/
inductive Piles.Handover (p : Piles) : List Event → Piles → Prop where
  | beginPlay {copy place : Nat} {c : CardCopy} {p' : Piles} (target : Option FighterId)
      (idle : p.inPlay = none) (h : p.beginPlay? copy = some (place, c, p')) :
      Handover p [.cardPlayed c.id c.card.id target] p'
  | finishPlay {c : CardCopy} (h : p.inPlay = some c) :
      Handover p [.cardsDiscarded [c.id]]
        { p with inPlay := none, discardPile := p.discardPile ++ [c] }

theorem Piles.Handover.topic {p p' : Piles} {es : List Event} (h : p.Handover es p') :
    ∀ e ∈ es, e.topic = .copies := by
  cases h with
  | beginPlay _ _ _ => simp [Event.topic]
  | finishPlay _ => simp [Event.topic]

/-- The ways in which action points change. -/
inductive Player.Budget (p : Player) : Player → Prop where
  | gain (amount : Int) : Budget p (p.gainAction amount)
  | spend {cost : Int} {q : Player} (h : p.spendAction? cost = some q) : Budget p q
  | reset : Budget p p.resetActionPoints

theorem Player.Budget.exists_eq {p q : Player} (h : p.Budget q) :
    ∃ n, q = { p with actionPoints := n } := by
  cases h with
  | gain n => exact ⟨_, rfl⟩
  | spend h =>
    simp only [spendAction?] at h
    split at h
    · cases h
    · cases h
      exact ⟨_, rfl⟩
  | reset => exact ⟨_, rfl⟩

theorem Player.exists_shifts_eq (shifts : List (Gauge × Int)) (p : Player) :
    ∃ angel demon, shifts.foldl (fun p (s : Gauge × Int) => p.shift s.1 s.2) p =
      { p with angel, demon } := by
  induction shifts generalizing p with
  | nil => exact ⟨p.angel, p.demon, rfl⟩
  | cons s ss ih =>
    obtain ⟨g, n⟩ := s
    obtain ⟨angel, demon, eq⟩ := ih (p.shift g n)
    refine ⟨angel, demon, ?_⟩
    rw [List.foldl_cons, eq]
    cases g <;> rfl

/-- One change that a slot, a payment, swift or the shifts of a card make, with its events. It
deals with the piles as if there was no card to grant. -/
inductive Deed : Battle → Battle → Prop where
  | fighter {b : Battle} {id : FighterId} {f f' : Fighter} {es : List Event}
      (hf : b.fighter? id = some f) (h : f.Change id es f') :
      Deed b ((b.setFighter id f').emitAll es)
  | piles {b : Battle} {es : List Event} {p : Piles} {s : Chance.Stream}
      (h : b.player.piles.Change [] b.chance es p s) : Deed b ((b.setPiles p s).emitAll es)
  | gauges {b : Battle} (shifts : List (Gauge × Int)) :
      Deed b
        { b with
          player := shifts.foldl (fun p (s : Gauge × Int) => p.shift s.1 s.2) b.player }.emitGauges
  | points {b : Battle} {p : Player} (h : b.player.Budget p) :
      Deed b { b with player := p }.emitActionPoints
  | enqueue {b : Battle} (h : DelayedHit) : Deed b (b.enqueue h)

abbrev Deeds : Battle → Battle → Prop := ReflTransGen Deed

/-- One change of a fighter among some. -/
inductive Touch (who : FighterId → Prop) : Battle → Battle → Prop where
  | change {b : Battle} {id : FighterId} {f f' : Fighter} {es : List Event} (among : who id)
      (hf : b.fighter? id = some f) (h : f.Change id es f') :
      Touch who b ((b.setFighter id f').emitAll es)

abbrev Touches (who : FighterId → Prop) : Battle → Battle → Prop := ReflTransGen (Touch who)

theorem Deeds.of_touches {b b' : Battle} (h : Touches (fun _ => True) b b') : Deeds b b' := by
  refine h.lift id ?_
  rintro _ _ ⟨_, hf, change⟩
  exact .fighter hf change

/-- One change while a phase lasts, with its events. -/
inductive Move : Battle → Battle → Prop where
  | fighter {b : Battle} {id : FighterId} {f f' : Fighter} {es : List Event}
      (hf : b.fighter? id = some f) (h : f.Change id es f') :
      Move b ((b.setFighter id f').emitAll es)
  | piles {b : Battle} {es : List Event} {p : Piles} {s : Chance.Stream}
      (h : b.player.piles.Change b.pool b.chance es p s) : Move b ((b.setPiles p s).emitAll es)
  | gauges {b : Battle} (shifts : List (Gauge × Int)) :
      Move b
        { b with
          player := shifts.foldl (fun p (s : Gauge × Int) => p.shift s.1 s.2) b.player }.emitGauges
  | points {b : Battle} {p : Player} (h : b.player.Budget p) :
      Move b { b with player := p }.emitActionPoints
  | enqueue {b : Battle} (h : DelayedHit) : Move b (b.enqueue h)
  | tick {b : Battle} : Move b { b with delayed := b.delayed.tick.2 }
  | remark {b : Battle} {e : Event} (h : e.topic = .remark) : Move b (b.emit e)
  | choose {b : Battle} (id : FighterId) : Move b (b.chooseIntent id).2
  | cast {b : Battle} {id : FighterId} {e : Enemy} {s : OwnedSkill}
      (he : b.enemy? id = some e) (hs : e.intentSkill? = some s) :
      Move b
        ((b.updateEnemy id fun e => { e with casts := e.casts + 1 }).emit
          (.skillUsed id s.skill.id))

abbrev Moves : Battle → Battle → Prop := ReflTransGen Move

/-- What happens to the piles without a card to grant can happen with any. -/
theorem Piles.Change.of_nil {σ : Type} [Chance.Generator σ] {p p' : Piles} {s s' : σ}
    {es : List Event} (h : p.Change [] s es p' s') (pool : List Card) :
    p.Change pool s es p' s' := by
  cases h with
  | draw n => exact .draw n
  | grant n =>
    have nothing : p.grant [] n s = p.grant pool 0 s := by
      cases n with
      | zero => rfl
      | succ n => simp only [Piles.grant, List.length_nil, Chance.Generator.index_zero]
    rw [nothing]
    exact .grant 0
  | destroy pile n => exact .destroy pile n
  | reduceCost h => exact .reduceCost h

theorem Deed.move {b b' : Battle} (h : Deed b b') : Move b b' := by
  cases h with
  | fighter hf h => exact .fighter hf h
  | piles h => exact .piles (h.of_nil _)
  | gauges shifts => exact .gauges shifts
  | points h => exact .points h
  | enqueue h => exact .enqueue h

theorem Deeds.moves {b b' : Battle} (h : Deeds b b') : Moves b b' :=
  h.lift id fun _ _ => Deed.move

namespace Battle

/-! ## Frames -/

/-- Telling changes the log only. -/
theorem emitAll_eq (b : Battle) (es : List Event) :
    b.emitAll es = { b with events := b.events ++ es.toArray } := by
  induction es generalizing b with
  | nil => simp [emitAll]
  | cons e es ih =>
    have h : b.emitAll (e :: es) = (b.emit e).emitAll es := rfl
    rw [h, ih]
    simp [emit]

theorem exists_setFighter_eq (b : Battle) (id : FighterId) (f : Fighter) :
    ∃ fighter enemies, b.setFighter id f =
      { b with player := { b.player with fighter }, enemies } := by
  cases id with
  | player => exact ⟨f, b.enemies, rfl⟩
  | enemy i => exact ⟨b.player.fighter, _, rfl⟩

theorem exists_updateEnemy_eq (b : Battle) (id : FighterId) (g : Enemy → Enemy) :
    ∃ enemies, b.updateEnemy id g = { b with enemies } := by
  cases id with
  | player => exact ⟨b.enemies, rfl⟩
  | enemy i => exact ⟨_, rfl⟩

theorem player_updateEnemy (b : Battle) (id : FighterId) (g : Enemy → Enemy) :
    (b.updateEnemy id g).player = b.player := by
  cases id <;> rfl

/-! ## Damage, healing and buffs -/

variable {who : FighterId → Prop}

theorem hurt_touches {target : FighterId} (among : who target) (x : Single) (b : Battle) :
    Touches who b (b.hurt target x).2 := by
  unfold hurt
  split
  · exact .refl
  · split
    · exact .refl
    · rename_i f hf
      split
      · rename_i alive
        exact .single (.change among hf (.hit x alive))
      · exact .refl

theorem heal_touches {target : FighterId} (among : who target) (x : Single) (b : Battle) :
    Touches who b (b.heal target x).2 := by
  unfold heal
  split
  · exact .refl
  · rename_i f hf
    split
    · rename_i alive
      have h := Touch.change among hf (.mend x alive)
      by_cases hr : 0 < (f.mend x).1
      · simp only [hr, if_true] at h ⊢
        exact .single h
      · simp only [hr, if_false] at h ⊢
        exact .single h
    · exact .refl

theorem settle_touches {b : Battle} {id : FighterId} {f : Fighter} {l : Ledger} (among : who id)
    (hf : b.fighter? id = some f) (h : f.buffs.Use l) :
    Touches who b ((b.setFighter id { f with buffs := l.prune.2 }).emitExpired id l.prune.1) :=
  .single (.change among hf (.settle h))

theorem drainLife_touches {attacker : FighterId} (among : who attacker) (lost : Int) (b : Battle) :
    Touches who b (b.drainLife attacker lost) := by
  unfold drainLife
  split
  · exact .refl
  · rename_i f hf
    split
    · exact .refl
    · rename_i percent l hl
      have used : f.buffs.Use l := by
        have h := Ledger.Use.drain (l := f.buffs)
        rw [hl] at h
        exact h
      exact (settle_touches among hf used).trans (heal_touches among _ _)

/-- A strike changes its target, and the attacker if it drains life. -/
theorem strike_touches {attacker target : FighterId} (ha : who attacker) (ht : who target)
    (x : Single) (b : Battle) : Touches who b (b.strike attacker target x).2 := by
  have drains : ∀ amount : Single, Touches who b
      (if 0 < (b.hurt target amount).1.lost && attacker != target then
        (b.hurt target amount).2.drainLife attacker (b.hurt target amount).1.lost
      else (b.hurt target amount).2) := by
    intro amount
    split
    · exact (hurt_touches ht amount b).trans (drainLife_touches ha _ _)
    · exact hurt_touches ht amount b
  exact drains _

theorem hurt_deeds (target : FighterId) (x : Single) (b : Battle) :
    Deeds b (b.hurt target x).2 :=
  .of_touches (hurt_touches trivial x b)

theorem hurtAll_moves (targets : List FighterId) (x : Single) (b : Battle) :
    Moves b (b.hurtAll targets x) := by
  induction targets generalizing b with
  | nil => exact .refl
  | cons t ts ih => exact (hurt_deeds t x b).moves.trans (ih _)

theorem land_moves (b : Battle) (h : DelayedHit) : Moves b (b.land h) := by
  have fired : Moves b (b.emit (.delayedFired h.caster h.damage)) := .single (.remark rfl)
  simp only [land]
  split
  · split
    · exact .refl
    · split
      · exact fired.trans (hurtAll_moves _ _ _)
      · exact .refl
  · split
    · exact fired.trans (hurtAll_moves _ _ _)
    · exact fired.trans (hurtAll_moves _ _ _)

theorem foldl_chain {α : Type} {r : Battle → Battle → Prop} {f : Battle → α → Battle}
    (h : ∀ b a, ReflTransGen r b (f b a)) (as : List α) (b : Battle) :
    ReflTransGen r b (as.foldl f b) := by
  induction as generalizing b with
  | nil => exact .refl
  | cons a as ih => exact (h b a).trans (ih _)

theorem fireDelayed_moves (b : Battle) : Moves b b.fireDelayed :=
  (ReflTransGen.single Move.tick).trans (foldl_chain land_moves _ _)

theorem pay?_deed {caster : FighterId} {meter : Meter} {cost : Int} {b b' : Battle}
    (h : b.pay? caster meter cost = some b') : Deed b b' := by
  simp only [pay?] at h
  split at h
  · cases h
  · split at h
    · split at h
      · cases h
      · cases h
        exact .gauges [(.angel, -cost)]
    · split at h
      · cases h
      · cases h
        exact .gauges [(.demon, -cost)]
    · split at h
      · cases h
      · rename_i p hp
        cases h
        exact .points (.spend hp)

theorem applyBuff_touches {spec : BuffSpec} {buff : Buff} (h : spec.toBuff = .ok buff)
    {target : FighterId} (among : who target) (b : Battle) :
    Touches who b (applyBuff buff b target) := by
  unfold applyBuff
  split
  · exact .refl
  · rename_i f hf
    exact .single (.change among hf (.apply h))

theorem cleanse_touches {target : FighterId} (among : who target) (n : Nat) (b : Battle) :
    Touches who b (b.cleanse target n) := by
  unfold cleanse
  split
  · exact .refl
  · rename_i f hf
    exact .single (.change among hf (.cleanse n))

theorem drawCards_deed (n : Nat) (b : Battle) : Deed b (b.drawCards n) := by
  have h := Deed.piles (b := b) (.draw n)
  simp only [drawCards]
  generalize b.player.piles.draw n b.chance = r at h ⊢
  obtain ⟨⟨ids, reshuffled⟩, p, s⟩ := r
  cases reshuffled <;> cases ids <;> exact h

theorem grantCards_move (n : Nat) (b : Battle) : Move b (b.grantCards n) := by
  have h := Move.piles (b := b) (.grant n)
  simp only [grantCards]
  generalize b.player.piles.grant b.pool n b.chance = r at h ⊢
  obtain ⟨ids, p, s⟩ := r
  cases ids <;> exact h

theorem destroyCards_deed (pile : Pile) (n : Nat) (b : Battle) :
    Deed b (b.destroyCards pile n) := by
  have h := Deed.piles (b := b) (.destroy pile n)
  simp only [destroyCards]
  generalize b.player.piles.destroy pile n b.chance = r at h ⊢
  obtain ⟨ids, p, s⟩ := r
  cases ids <;> exact h

theorem reduceCost_deeds (copy : Nat) (amount : Int) (b : Battle) :
    Deeds b (b.reduceCost copy amount) := by
  simp only [reduceCost]
  split
  · exact .refl
  · rename_i cost p hp
    exact .single (.piles (.reduceCost hp))

theorem hurtSelf_touches {caster : FighterId} (among : who caster) (x : Single) (b : Battle) :
    Touches who b (b.hurtSelf caster x) := by
  unfold hurtSelf
  split
  · exact .refl
  · exact hurt_touches among _ _

theorem healPercent_touches {caster : FighterId} (among : who caster) (x : Single) (b : Battle) :
    Touches who b (b.healPercent caster x) := by
  unfold healPercent
  split
  · exact .refl
  · exact heal_touches among _ _

end Battle

/-! ## Resolutions -/

namespace Frame

open Battle

/-- A way to echo that only makes moves. -/
def Echo.Moving (echo : Echo) : Prop :=
  ∀ frame place p, Moves p.battle (echo frame place p).battle

variable {echo : Echo}

theorem castMore_moves (he : echo.Moving) (frame : Frame) (side : Side) (distance : Nat)
    (p : Progress) : Moves p.battle (frame.castMore echo side distance p).battle := by
  simp only [castMore]
  split
  · exact .refl
  · split
    · exact .refl
    · exact he _ _ _

theorem strikes_touches {who : FighterId → Prop} {caster : FighterId} (own : who caster) (x : Single)
    {ts : List FighterId} (targets : ∀ t ∈ ts, who t) (p : Progress) :
    Touches who p.battle (ts.foldl (Progress.strike caster x) p).battle := by
  induction ts generalizing p with
  | nil => exact .refl
  | cons t ts ih =>
    rw [List.forall_mem_cons] at targets
    exact (strike_touches own targets.1 x p.battle).trans
      (ih targets.2 (p.strike caster x t))

theorem applyBuffs_touches {who : FighterId → Prop} {spec : BuffSpec} {buff : Buff}
    (h : spec.toBuff = .ok buff) {ts : List FighterId} (targets : ∀ t ∈ ts, who t) (b : Battle) :
    Touches who b (ts.foldl (applyBuff buff) b) := by
  induction ts generalizing b with
  | nil => exact .refl
  | cons t ts ih =>
    rw [List.forall_mem_cons] at targets
    exact (applyBuff_touches h targets.1 b).trans (ih targets.2 _)

/-- A way to echo that does nothing. -/
def mute : Echo := fun _ _ p => p

/-- What an effect does apart from an echo. -/
theorem execute_deeds (frame : Frame) (p : Progress) (e : Effect) :
    Deeds p.battle (frame.execute mute p e).battle := by
  cases e with
  | damageTarget x =>
    simp only [execute]
    split
    · exact .refl
    · exact .of_touches (strike_touches trivial trivial _ _)
  | damageOpponents x => exact .of_touches (strikes_touches trivial x (fun _ _ => trivial) p)
  | damageSelf x => exact .of_touches (hurtSelf_touches trivial _ _)
  | healSelf x => exact .of_touches (heal_touches trivial _ _)
  | healSelfPercent x => exact .of_touches (healPercent_touches trivial _ _)
  | shiftGauge gauge delta => exact .single (.gauges [(gauge, delta)])
  | gainAction n =>
    simp only [execute]
    split
    · exact .refl
    · exact .single (.points (.gain n))
  | reduceCost n =>
    simp only [execute]
    split
    · exact .refl
    · exact reduceCost_deeds _ _ _
  | drawCards n => exact .single (drawCards_deed n _)
  | burn pile n => exact .single (destroyCards_deed pile n _)
  | cleanseSelf n => exact .of_touches (cleanse_touches trivial _ _)
  | applyBuff scope spec =>
    simp only [execute]
    split
    · exact .refl
    · rename_i buff hb
      exact .of_touches (applyBuffs_touches hb (fun _ _ => trivial) _)
  | castMore side distance =>
    have still : frame.castMore mute side distance p = p := by
      simp only [castMore]
      split
      · rfl
      · split <;> rfl
    simp only [execute, still]
    exact .refl
  | delay mode x turns =>
    simp only [execute]
    split
    · exact .refl
    · exact .single (.enqueue _)
  | spendRepeat _ _ _ => exact .refl

/-- The way to echo matters to the effect that asks for a neighbour, and to no other. -/
theorem execute_eq_mute (frame : Frame) (p : Progress) {e : Effect}
    (h : ∀ side distance, e ≠ .castMore side distance) :
    frame.execute echo p e = frame.execute mute p e := by
  cases e with
  | castMore side distance => exact absurd rfl (h side distance)
  | _ => rfl

theorem runSlot_deeds (frame : Frame) (p : Progress) (s : Slot) :
    Deeds p.battle (frame.runSlot mute p s).battle := by
  simp only [runSlot]
  split
  · exact .refl
  · split
    · split
      · exact execute_deeds _ _ _
      · exact .refl
      · exact .refl
    · exact .refl

theorem execute_moves (he : echo.Moving) (frame : Frame) (p : Progress) (e : Effect) :
    Moves p.battle (frame.execute echo p e).battle := by
  by_cases asks : ∃ side distance, e = .castMore side distance
  · obtain ⟨side, distance, rfl⟩ := asks
    exact castMore_moves he _ _ _ _
  · rw [execute_eq_mute frame p fun side distance eq => asks ⟨side, distance, eq⟩]
    exact (execute_deeds frame p e).moves

theorem runSlot_moves (he : echo.Moving) (frame : Frame) (p : Progress) (s : Slot) :
    Moves p.battle (frame.runSlot echo p s).battle := by
  simp only [runSlot]
  split
  · exact .refl
  · split
    · split
      · exact execute_moves he _ _ _
      · exact .refl
      · exact .refl
    · exact .refl

theorem runSlots_moves (he : echo.Moving) (frame : Frame) (slots : List Slot) (p : Progress) :
    Moves p.battle (frame.runSlots echo slots p).battle := by
  simp only [runSlots]
  induction slots generalizing p with
  | nil => exact .refl
  | cons s ss ih => exact (runSlot_moves he frame p s).trans (ih _)

theorem runRepeats_moves (he : echo.Moving) (frame : Frame) (slots : List Slot) (meter : Meter)
    (cost : Int) (n : Nat) (p : Progress) :
    Moves p.battle (frame.runRepeats echo slots meter cost n p).battle := by
  induction n generalizing p with
  | zero => exact .refl
  | succ n ih =>
    simp only [runRepeats]
    split
    · exact .refl
    · rename_i b hb
      have paid : Moves p.battle b := .single (pay?_deed hb).move
      exact paid.trans ((runSlots_moves he frame slots { p with battle := b }).trans (ih _))

theorem runRepeatSlot_moves (he : echo.Moving) (frame : Frame) (s : Slot) (rest : List Slot)
    (p : Progress) : Moves p.battle (frame.runRepeatSlot echo s rest p).battle := by
  simp only [runRepeatSlot]
  split
  · split
    · exact runRepeats_moves he _ _ _ _ _ _
    · exact .refl
  · exact .refl

theorem runCard_moves (he : echo.Moving) (frame : Frame) (p : Progress) :
    Moves p.battle (frame.runCard echo p).battle := by
  simp only [runCard]
  split
  · exact runSlots_moves he _ _ _
  · exact (runSlots_moves he _ _ _).trans (runRepeatSlot_moves he _ _ _ _)

/-- By induction on the links of the chain that are left. -/
theorem echo_moving (links : Nat) : Echo.Moving (Frame.echo links) := by
  induction links with
  | zero => intro frame place p; exact .refl
  | succ links ih =>
    intro frame place p
    simp only [Frame.echo]
    split
    · exact .refl
    · rename_i c _
      have told : Moves p.battle (p.battle.emit (.cardEchoed c.id c.card.id)) :=
        .single (.remark rfl)
      exact told.trans (runCard_moves ih _ (p.map fun b => b.emit (.cardEchoed c.id c.card.id)))

end Frame

namespace Battle

theorem takeSwift_touches {who : FighterId → Prop} (among : who .player) (b : Battle) :
    Touches who b b.takeSwift.2 := by
  unfold takeSwift
  split
  · exact .refl
  · rename_i reach l hl
    have used : b.player.fighter.buffs.Use l := by
      have h := Ledger.Use.swift (l := b.player.fighter.buffs)
      rw [hl] at h
      exact h
    have there : b.fighter? .player = some b.player.fighter := rfl
    exact settle_touches among there used

theorem takeSwift_deeds (b : Battle) : Deeds b b.takeSwift.2 :=
  .of_touches (takeSwift_touches trivial b)

theorem applyShifts_deeds (card : Card) (b : Battle) : Deeds b (applyShifts card b) := by
  simp only [applyShifts]
  split
  · exact .refl
  · exact .single (.gauges [(.angel, card.angelShift), (.demon, card.demonShift)])

theorem echoCopy_moves (frame : Frame) (p : Progress) (id : Nat) :
    Moves p.battle (echoCopy frame p id).battle := by
  simp only [echoCopy]
  split
  · exact .refl
  · exact Frame.echo_moving _ _ _ _

theorem echoCopies_moves (frame : Frame) (ids : List Nat) (p : Progress) :
    Moves p.battle (ids.foldl (echoCopy frame) p).battle := by
  induction ids generalizing p with
  | nil => exact .refl
  | cons id ids ih => exact (echoCopy_moves frame p id).trans (ih _)

theorem resolveCard_moves (c : PlayedCopy) (target : Option FighterId) (b : Battle) :
    Moves b (b.resolveCard c target).2 := by
  simp only [resolveCard]
  have swift := (takeSwift_deeds b).moves
  generalize b.takeSwift = r at swift ⊢
  obtain ⟨reach, b₁⟩ := r
  simp only
  have ran := Frame.runCard_moves (Frame.echo_moving b₁.settings.maxChainDepth) (c.frame target)
    { battle := b₁, killed := false }
  generalize (c.frame target).runCard (Frame.echo b₁.settings.maxChainDepth)
    { battle := b₁, killed := false } = p at ran ⊢
  have shifted : Moves p.battle (p.map (applyShifts c.card)).battle :=
    (applyShifts_deeds _ _).moves
  exact ((swift.trans ran).trans shifted).trans (echoCopies_moves _ _ _)

theorem resolveSkill_moves (enemy : FighterId) (skill : Skill) (attack : Int) (b : Battle) :
    Moves b (b.resolveSkill enemy skill attack).2 :=
  Frame.runCard_moves (Frame.echo_moving _) _ { battle := b, killed := false }

/-! ## Turn hooks -/

theorem startBuffs_touches {who : FighterId → Prop} {id : FighterId} (among : who id)
    (b : Battle) : Touches who b (b.startBuffs id).2 := by
  unfold startBuffs
  split
  · exact .refl
  · rename_i f hf
    exact settle_touches among hf .turnStart

theorem applyTick_touches {who : FighterId → Prop} {id : FighterId} (among : who id) (b : Battle)
    (t : Tick) : Touches who b (applyTick id b t) := by
  cases t with
  | heal _ x => exact heal_touches among x b
  | damage _ x => exact hurt_touches among x b

theorem pruneBuffs_touches {who : FighterId → Prop} {id : FighterId} (among : who id)
    (b : Battle) : Touches who b (b.pruneBuffs id) := by
  unfold pruneBuffs
  split
  · exact .refl
  · rename_i f hf
    exact settle_touches among hf .idle

theorem endBuffs_touches {who : FighterId → Prop} {id : FighterId} (among : who id) (b : Battle) :
    Touches who b (b.endBuffs id) := by
  unfold endBuffs
  split
  · exact .refl
  · exact (foldl_chain (applyTick_touches among) _ _).trans (pruneBuffs_touches among _)

theorem startBuffs_deeds (id : FighterId) (b : Battle) : Deeds b (b.startBuffs id).2 :=
  .of_touches (startBuffs_touches trivial b)

theorem endBuffs_deeds (id : FighterId) (b : Battle) : Deeds b (b.endBuffs id) :=
  .of_touches (endBuffs_touches trivial b)

theorem endBuffs_moves (id : FighterId) (b : Battle) : Moves b (b.endBuffs id) :=
  (endBuffs_deeds id b).moves

theorem performIntent_moves (id : FighterId) (b : Battle) : Moves b (b.performIntent id).2 := by
  simp only [performIntent]
  split
  · exact .refl
  · rename_i e he
    split
    · split
      · exact .refl
      · rename_i s hs
        exact (ReflTransGen.single (.cast he hs)).trans (resolveSkill_moves _ _ _ _)
    · exact .refl

theorem enemyActs_moves (id : FighterId) (b : Battle) : Moves b (b.enemyActs id) := by
  simp only [enemyActs]
  split
  · split
    · exact (startBuffs_deeds _ _).moves.trans (performIntent_moves _ _)
    · exact (startBuffs_deeds _ _).moves
  · exact .refl

theorem enemiesAct_moves (ids : List FighterId) (b : Battle) :
    Moves b (enemiesAct ids b) := by
  induction ids generalizing b with
  | nil => exact .refl
  | cons id ids ih =>
    simp only [enemiesAct]
    split
    · exact (enemyActs_moves _ _).trans (ih _)
    · exact enemyActs_moves _ _

theorem enemyRests_moves (b : Battle) (id : FighterId) : Moves b (b.enemyRests id) := by
  simp only [enemyRests]
  split
  · exact (endBuffs_moves _ _).trans (.single (.choose id))
  · exact endBuffs_moves _ _

theorem runEnemyTurn_moves (b : Battle) : Moves b b.runEnemyTurn := by
  simp only [runEnemyTurn]
  split
  · exact (enemiesAct_moves _ _).trans (foldl_chain enemyRests_moves _ _)
  · exact enemiesAct_moves _ _

theorem refreshIntents_moves (b : Battle) : Moves b b.refreshIntents :=
  foldl_chain (fun _ id => .single (.choose id)) _ _

end Battle

/-! ## The turn order -/

namespace Battle

/-- The state in which a player turn begins. -/
def turnBegun (b : Battle) : Battle :=
  ({ b with turn := b.turn + 1 }.setPhase .playerTurn).emit (.turnStarted (b.turn + 1))

/-- The state that the end check makes of a decided battle. -/
def ended (o : Outcome) (b : Battle) : Battle :=
  ({ b with outcome := some o }.setPhase .battleEnd).emit (.battleEnded o)

theorem events_turnBegun (b : Battle) :
    b.turnBegun.events.toList =
      b.events.toList ++ [.phaseChanged .playerTurn, .turnStarted (b.turn + 1)] := by
  simp [turnBegun, setPhase, emit]

theorem events_ended (o : Outcome) (b : Battle) :
    (b.ended o).events.toList =
      b.events.toList ++ [.phaseChanged .battleEnd, .battleEnded o] := by
  simp [ended, setPhase, emit]

/-- The end check asks whether the battle is decided, unless it is over. -/
theorem checkEnd_cases {b : Battle} (h : b.phase ≠ .battleEnd) :
    (b.decided? = none ∧ b.checkEnd = (false, b)) ∨
      ∃ o, b.decided? = some o ∧ b.checkEnd = (true, b.ended o) := by
  have running : b.isFinished = false := by simp [isFinished, h]
  simp only [checkEnd, running, Bool.false_eq_true, if_false]
  cases hd : b.decided? with
  | none => exact .inl ⟨rfl, rfl⟩
  | some o => exact .inr ⟨o, rfl, rfl⟩

/-- A player turn from the granted cards on. -/
theorem deal_moves (gifts : Nat) (b : Battle) :
    Moves b
      ((if gifts = 0 then b else b.grantCards gifts).drawCards
        (if gifts = 0 then b else b.grantCards gifts).settings.handSize).fireDelayed := by
  have granted : Moves b (if gifts = 0 then b else b.grantCards gifts) := by
    split
    · exact .refl
    · exact .single (grantCards_move gifts b)
  generalize (if gifts = 0 then b else b.grantCards gifts) = b₁ at granted ⊢
  have drawn : Moves b₁ (b₁.drawCards b₁.settings.handSize) :=
    .single (drawCards_deed _ _).move
  exact granted.trans (drawn.trans (fireDelayed_moves _))

/-- Once it has begun, a player turn makes moves up to its end check. -/
theorem beginPlayerTurn_moves (b : Battle) :
    ∃ b₁, Moves b.turnBegun b₁ ∧ b.beginPlayerTurn = b₁.checkEnd.2 := by
  have reset : Moves b.turnBegun b.turnBegun.resetActionPoints := .single (.points .reset)
  have hooked := (startBuffs_deeds .player b.turnBegun.resetActionPoints).moves
  exact ⟨_, (reset.trans hooked).trans (deal_moves _ _), rfl⟩

end Battle

/-- A move or a change that the turn order makes, with its events. -/
inductive Stage : Battle → Battle → Prop where
  | move {b b' : Battle} (h : Move b b') : Stage b b'
  | opening {b : Battle} (h : b.phase = .battleStart) :
      Stage b (b.emit (.phaseChanged .battleStart))
  | playerTurn {b : Battle} : Stage b b.turnBegun
  | sweep {b : Battle} :
      Stage b
        ((b.setPiles b.player.piles.discardHand.2 b.chance).emitAll
          (Event.ofCopies .cardsDiscarded b.player.piles.discardHand.1))
  | enemyTurn {b : Battle} : Stage b (b.setPhase .enemyTurn)
  | ending {b : Battle} {o : Outcome} (h : b.decided? = some o) : Stage b (b.ended o)

abbrev Stages : Battle → Battle → Prop := ReflTransGen Stage

/-- A stage, or a play that begins or ends. -/
inductive Step : Battle → Battle → Prop where
  | stage {b b' : Battle} (h : Stage b b') : Step b b'
  | handover {b : Battle} {es : List Event} {p : Piles} (h : b.player.piles.Handover es p) :
      Step b ((b.setPiles p b.chance).emitAll es)

abbrev Steps : Battle → Battle → Prop := ReflTransGen Step

theorem Stages.steps {b b' : Battle} (h : Stages b b') : Steps b b' :=
  h.lift id fun _ _ => Step.stage

theorem Moves.stages {b b' : Battle} (h : Moves b b') : Stages b b' :=
  h.lift id fun _ _ => Stage.move

namespace Battle

theorem checkEnd_stages (b : Battle) : Stages b b.checkEnd.2 := by
  simp only [checkEnd]
  split
  · exact .refl
  · split
    · exact .refl
    · rename_i o ho
      exact .single (.ending ho)

theorem beginPlayerTurn_stages (b : Battle) : Stages b b.beginPlayerTurn := by
  obtain ⟨b₁, moves, eq⟩ := beginPlayerTurn_moves b
  rw [eq]
  exact .head .playerTurn (moves.stages.trans (checkEnd_stages b₁))

theorem discardHand_stage (b : Battle) : Stage b b.discardHand := by
  have h := Stage.sweep (b := b)
  simp only [discardHand]
  generalize b.player.piles.discardHand = r at h ⊢
  obtain ⟨ids, p⟩ := r
  cases ids <;> exact h

theorem endPlayerTurn_stages (b : Battle) : Stages b b.endPlayerTurn := by
  have rested : Stages b (b.endBuffs .player).discardHand.checkEnd.2 :=
    ((endBuffs_moves .player b).stages.tail (discardHand_stage _)).trans (checkEnd_stages _)
  simp only [endPlayerTurn]
  generalize (b.endBuffs .player).discardHand.checkEnd = r at rested ⊢
  obtain ⟨isOver, b₁⟩ := r
  cases isOver with
  | true => exact rested
  | false =>
    have fought : Stages b₁ (b₁.setPhase .enemyTurn).runEnemyTurn.checkEnd.2 :=
      ReflTransGen.head .enemyTurn ((runEnemyTurn_moves _).stages.trans (checkEnd_stages _))
    simp only
    generalize (b₁.setPhase .enemyTurn).runEnemyTurn.checkEnd = r at fought ⊢
    obtain ⟨isOver, b₂⟩ := r
    cases isOver with
    | true => exact rested.trans fought
    | false => exact (rested.trans fought).trans (beginPlayerTurn_stages b₂)

theorem begin_stages {b : Battle} (h : b.phase = .battleStart) : Stages b b.begin :=
  ReflTransGen.head (.opening h)
    ((refreshIntents_moves _).stages.trans (beginPlayerTurn_stages _))

end Battle
end CardBattle
