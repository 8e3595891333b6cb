import CardBattle.Proofs.Round
import CardBattle.Proofs.Schedule

/-!
# CardBattle.Proofs.Punctual

Delayed hits land on time. A hit that a card queues in a turn leaves the queue when as many turns
have begun as it was delayed, and at least one, if the battle gets that far. It lands on its target
or on all enemies that live at that moment, or it fizzles because its target is dead.

* `Battle.Queues`: what a play does to the queue; `resolveCard_queues`, by induction on the links of
  the chain.
* `Battle.Lands`, `Battle.Volley`: how due hits land, one after the other.
* `Session.log`: the hits that calls have queued, each with its turn.
* `Session.punctual_run`: the queue and the beginning of every turn, from the log.
-/

namespace CardBattle

/-! ## What is queued -/

namespace Effect

/-- The turns that an effect delays. -/
def delay? : Effect → Option Int
  | .delay _ _ turns => some turns
  | _ => none

/-- A delay is read as an amount. -/
theorem inRange_of_read {kind : EffectKind} {text : String} {e : Effect} {turns : Int}
    (h : read kind text = .ok (some e)) (delay : e.delay? = some turns) : Amount.InRange turns := by
  have own := mem_kinds_of_read h
  have inRange : ∀ mode value, delayOf kind value mode = .ok e → Amount.InRange turns := by
    intro mode value ok
    obtain ⟨_, _, rfl, bounds⟩ := exists_of_delayOf ok
    cases delay
    exact bounds
  rw [read] at h
  cases e with
  | delay mode x n =>
    -- Of the two kinds for a delay each reads its own mode.
    cases mode with
    | single =>
      cases List.mem_singleton.mp own
      obtain ⟨_, ok, eq⟩ := map_eq_ok_iff.mp h
      cases eq
      exact inRange _ _ ok
    | area =>
      cases List.mem_singleton.mp own
      obtain ⟨_, ok, eq⟩ := map_eq_ok_iff.mp h
      cases eq
      exact inRange _ _ ok
  | _ => cases delay

end Effect

/-- A hit that a card of the player queues: at the target of the play, or at all enemies. -/
structure DelayedHit.CastAt (target : Option FighterId) (h : DelayedHit) : Prop where
  caster : h.caster = .player
  delay : Amount.InRange h.remaining
  aim : h.mode = .single ∧ h.target = target ∧ target.isSome = true ∨
    h.mode = .area ∧ h.atPlayer = false

/-- What is told of a hit when it is queued. -/
def DelayedHit.told (h : DelayedHit) : FighterId × Single × Int := (h.caster, h.damage, h.remaining)

namespace Battle

variable {target : Option FighterId} {b b₁ b' : Battle}

/-- Hits of a play with this target join the queue at its end, and they are told. -/
def Queues (target : Option FighterId) (b b' : Battle) : Prop :=
  ∃ hits : List DelayedHit, b'.delayed = b.delayed ++ hits ∧
    b'.queuings = b.queuings ++ hits.map DelayedHit.told ∧ ∀ h ∈ hits, h.CastAt target

theorem KeepsQueue.queues (h : b.KeepsQueue b') : Queues target b b' :=
  ⟨[], by simp [h.delayed], by simp [h.queuings], List.forall_mem_nil _⟩

theorem Queues.refl (b : Battle) : Queues target b b := (KeepsQueue.refl b).queues

theorem Queues.trans (h : Queues target b b₁) (h' : Queues target b₁ b') : Queues target b b' := by
  obtain ⟨hits, delayed, told, aimed⟩ := h
  obtain ⟨hits', delayed', told', aimed'⟩ := h'
  refine ⟨hits ++ hits', ?_, ?_, List.forall_mem_append.mpr ⟨aimed, aimed'⟩⟩
  · rw [delayed', delayed, List.append_assoc]
  · rw [told', told, List.map_append, List.append_assoc]

theorem enqueue_queues {h : DelayedHit} (cast : h.CastAt target) (b : Battle) :
    Queues target b (b.enqueue h) := by
  refine ⟨[h], rfl, ?_, by simpa using cast⟩
  simp [queuings, enqueue, emit, Event.queued?, DelayedHit.told]

theorem applyBuff_keepsQueue {spec : BuffSpec} {buff : Buff} (h : spec.toBuff = .ok buff)
    (b : Battle) (t : FighterId) : b.KeepsQueue (applyBuff buff b t) := by
  simp only [applyBuff]
  split
  · exact .refl b
  · exact keepsQueue_change (.apply h)

theorem pay?_keepsQueue {caster : FighterId} {meter : Meter} {cost : Int}
    (h : b.pay? caster meter cost = some b') : b.KeepsQueue b' := by
  simp only [pay?] at h
  split at h
  · cases h
  · split at h
    · split at h
      · cases h
      · cases h
        exact (shiftGauge_quiet _ _ _).queue
    · split at h
      · cases h
      · cases h
        exact (shiftGauge_quiet _ _ _).queue
    · split at h
      · cases h
      · rename_i spent
        cases h
        exact (budget_quiet (.spend spent)).queue

end Battle

namespace Frame

open Battle

variable {target : Option FighterId} {frame : Frame} {echo : Echo}

/-- A frame of a card that the player has played at this target, or of an echo of it. -/
structure PlayedAt (target : Option FighterId) (frame : Frame) : Prop where
  caster : frame.caster = .player
  target : frame.target = target

/-- A way to echo that queues hits of the play only. -/
def Echo.Queueing (target : Option FighterId) (echo : Echo) : Prop :=
  ∀ frame place p, frame.PlayedAt target → Queues target p.battle (echo frame place p).battle

theorem castAt_of_delayedHit? (played : frame.PlayedAt target) {mode : DelayMode} {x : Single}
    {turns : Int} {b : Battle} {h : DelayedHit} (delay : Amount.InRange turns)
    (found : frame.delayedHit? mode x turns b = some h) : h.CastAt target := by
  cases mode with
  | area =>
    cases found
    refine ⟨played.caster, delay, .inr ⟨rfl, ?_⟩⟩
    simp [DelayedHit.area, played.caster]
  | single =>
    simp only [delayedHit?] at found
    split at found
    · cases found
    · rename_i t aimed
      cases found
      simp only [singleTarget?, played.caster, played.target] at aimed
      have same : target = some t := by
        split at aimed
        · cases aimed
        · split at aimed
          · exact aimed
          · cases aimed
      exact ⟨played.caster, delay, .inl ⟨rfl, same.symm, by rw [same]; rfl⟩⟩

theorem execute_queues (he : echo.Queueing target) (played : frame.PlayedAt target) (p : Progress)
    {s : Slot} {e : Effect} (read : Effect.read s.kind s.value = .ok (some e)) :
    Queues target p.battle (frame.execute echo p e).battle := by
  cases e with
  | applyBuff scope spec =>
    simp only [execute]
    split
    · exact .refl _
    · rename_i buff hb
      have each : ∀ (ts : List FighterId) (b : Battle),
          b.KeepsQueue (ts.foldl (applyBuff buff) b) := by
        intro ts
        induction ts with
        | nil => exact fun b => .refl b
        | cons t ts ih => exact fun b => (applyBuff_keepsQueue hb b t).trans (ih _)
      exact (each _ _).queues
  | castMore side distance =>
    simp only [execute, castMore]
    split
    · exact .refl _
    · split
      · exact .refl _
      · exact he _ _ _ played
  | delay mode x turns =>
    simp only [execute]
    split
    · exact .refl _
    · rename_i h found
      exact enqueue_queues
        (castAt_of_delayedHit? played (Effect.inRange_of_read read rfl) found) _
  | spendRepeat _ _ _ => exact .refl _
  | _ =>
    rw [execute_eq_mute frame p]
    · exact (execute_quiet frame p rfl).queue.queues
    · intro _ _ asks
      cases asks

theorem runSlot_queues (he : echo.Queueing target) (played : frame.PlayedAt target) (p : Progress)
    (s : Slot) : Queues target p.battle (frame.runSlot echo p s).battle := by
  rw [runSlot_eq_execute]
  cases effect : frame.effect? p s with
  | none => exact .refl _
  | some e => exact execute_queues he played p (read_of_effect? effect)

theorem runSlots_queues (he : echo.Queueing target) (played : frame.PlayedAt target)
    (slots : List Slot) (p : Progress) :
    Queues target p.battle (frame.runSlots echo slots p).battle := by
  simp only [runSlots]
  induction slots generalizing p with
  | nil => exact .refl _
  | cons s ss ih => exact (runSlot_queues he played p s).trans (ih _)

theorem runRepeats_queues (he : echo.Queueing target) (played : frame.PlayedAt target)
    (slots : List Slot) (meter : Meter) (cost : Int) (n : Nat) (p : Progress) :
    Queues target p.battle (frame.runRepeats echo slots meter cost n p).battle := by
  induction n generalizing p with
  | zero => exact .refl _
  | succ n ih =>
    simp only [runRepeats]
    split
    · exact .refl _
    · rename_i b hb
      exact (pay?_keepsQueue hb).queues.trans
        ((runSlots_queues he played slots { p with battle := b }).trans (ih _))

theorem runCard_queues (he : echo.Queueing target) (played : frame.PlayedAt target)
    (p : Progress) : Queues target p.battle (frame.runCard echo p).battle := by
  have plain := runSlots_queues he played frame.plainSlots p
  simp only [runCard]
  split
  · exact plain
  · refine plain.trans ?_
    simp only [runRepeatSlot]
    split
    · split
      · exact runRepeats_queues he played _ _ _ _ _
      · exact .refl _
    · exact .refl _

/-- By induction on the links of the chain that are left: an echo keeps the caster and the
target. -/
theorem echo_queueing (links : Nat) : Echo.Queueing target (Frame.echo links) := by
  induction links with
  | zero =>
    intro frame place p _
    exact .refl _
  | succ links ih =>
    intro frame place p played
    simp only [Frame.echo]
    split
    · exact .refl _
    · rename_i c _
      have told : Queues target p.battle (p.battle.emit (.cardEchoed c.id c.card.id)) :=
        (quiet_emit rfl p.battle).queue.queues
      have echoed : (frame.ofEcho place c).PlayedAt target := ⟨played.caster, played.target⟩
      exact told.trans
        (runCard_queues ih echoed (p.map fun b => b.emit (.cardEchoed c.id c.card.id)))

end Frame

namespace Battle

open CardBattle.Frame

variable {target : Option FighterId} {b b' : Battle}

theorem echoCopies_queues {frame : Frame} (played : frame.PlayedAt target) (ids : List Nat)
    (p : Progress) : Queues target p.battle (ids.foldl (echoCopy frame) p).battle := by
  induction ids generalizing p with
  | nil => exact .refl _
  | cons id ids ih =>
    have first : Queues target p.battle (echoCopy frame p id).battle := by
      simp only [echoCopy]
      split
      · exact .refl _
      · exact echo_queueing _ _ _ _ played
    exact first.trans (ih _)

theorem resolveCard_queues (c : PlayedCopy) (target : Option FighterId) (b : Battle) :
    Queues target b (b.resolveCard c target).2 := by
  simp only [resolveCard]
  have swift : Queues target b b.takeSwift.2 := (takeSwift_quiet b).queue.queues
  generalize b.takeSwift = r at swift ⊢
  obtain ⟨reach, b₁⟩ := r
  simp only
  have played : (c.frame target).PlayedAt target := ⟨rfl, rfl⟩
  have ran := runCard_queues (echo_queueing b₁.settings.maxChainDepth) played
    { battle := b₁, killed := false }
  generalize (c.frame target).runCard (Frame.echo b₁.settings.maxChainDepth)
    { battle := b₁, killed := false } = p at ran ⊢
  have shifted : Queues target p.battle (p.map (applyShifts c.card)).battle :=
    (applyShifts_quiet _ _).queue.queues
  exact ((swift.trans ran).trans shifted).trans (echoCopies_queues played _ _)

theorem opened_keepsQueue (b : Battle) (c : CardCopy) (piles : Piles)
    (target : Option FighterId) : b.KeepsQueue (b.opened c piles target) := by
  refine ⟨rfl, ?_⟩
  simp [opened, queuings, emit, emitActionPoints, Event.queued?]

theorem finishPlay_keepsQueue (b : Battle) : b.KeepsQueue b.finishPlay := by
  simp only [finishPlay, Piles.finishPlay]
  split
  · exact (checkEnd_quiet b).queue
  · rename_i id piles _
    have placed : b.Quiet { b with player := { b.player with piles } } :=
      quiet_aside [] rfl (List.append_nil _).symm (List.forall_mem_nil _) (fighter?_congr rfl rfl)
    exact ((placed.trans (quiet_emit rfl _)).trans (checkEnd_quiet _)).queue

theorem play_queues {copy : Nat} (h : b.play copy target = .ok b') : Queues target b b' := by
  obtain ⟨place, c, piles, _, _, rfl⟩ := exists_of_play h
  rw [playCopy_eq]
  exact ((opened_keepsQueue b c piles target).queues.trans (resolveCard_queues _ _ _)).trans
    (finishPlay_keepsQueue _).queues

/-- The target of an accepted play is one of the enemies. -/
theorem enemy_of_play {copy : Nat} {t : FighterId} (h : b.play copy (some t) = .ok b') :
    ∃ i, t = .enemy i ∧ ∃ f, b.fighter? t = some f := by
  have valid : b.isTarget t = true := by
    simp only [play] at h
    split at h
    · cases h
    · cases h
    · cases h
    · split at h
      · cases h
      · split at h
        · cases h
        · split at h
          · assumption
          · cases h
  simp only [isTarget, Bool.and_eq_true, bne_iff_ne, isAlive] at valid
  obtain ⟨foe, alive⟩ := valid
  cases t with
  | player => exact absurd rfl foe
  | enemy i =>
    refine ⟨i, rfl, ?_⟩
    split at alive
    · cases alive
    · rename_i f hf
      exact ⟨f, hf⟩

end Battle

/-! ## How hits land -/

/-- A hit of the player, on an enemy of the battle or on all enemies. -/
structure DelayedHit.Aimed (b : Battle) (h : DelayedHit) : Prop where
  caster : h.caster = .player
  aim : (h.mode = .single ∧ ∃ i f, h.target = some (.enemy i) ∧ b.fighter? (.enemy i) = some f) ∨
    h.mode = .area ∧ h.atPlayer = false

namespace Battle

variable {b b₁ b' : Battle}

/-- How a hit lands: on its target, on nobody because its target is dead, or on all enemies that
are alive at that moment. -/
inductive Lands (b : Battle) (h : DelayedHit) : Battle → Prop where
  | target {t : FighterId} {f : Fighter} (mode : h.mode = .single) (aim : h.target = some t)
      (there : b.fighter? t = some f) (alive : f.isAlive = true) :
      Lands b h ((b.emit (.delayedFired h.caster h.damage)).hurt t h.damage).2
  | fizzle {t : FighterId} {f : Fighter} (mode : h.mode = .single) (aim : h.target = some t)
      (there : b.fighter? t = some f) (dead : f.isAlive = false) : Lands b h b
  | area (mode : h.mode = .area) :
      Lands b h ((b.emit (.delayedFired h.caster h.damage)).hurtAll b.living h.damage)

/-- Hits land one after the other. -/
inductive Volley : Battle → List DelayedHit → Battle → Prop where
  | done {b : Battle} : Volley b [] b
  | next {b b₁ b' : Battle} {h : DelayedHit} {hs : List DelayedHit} (first : Lands b h b₁)
      (rest : Volley b₁ hs b') : Volley b (h :: hs) b'

theorem land_lands {h : DelayedHit} (aimed : h.Aimed b) : b.Lands h (b.land h) := by
  obtain ⟨mode, i, f, aim, there⟩ | ⟨mode, foes⟩ := aimed.aim
  · have alive : b.isAlive (.enemy i) = f.isAlive := isAlive_eq there
    cases living : f.isAlive with
    | true =>
      have landed := Lands.target mode aim there living
      simp only [land, mode, aim, alive, living, if_true]
      exact landed
    | false =>
      simp only [land, mode, aim, alive, living, Bool.false_eq_true, if_false]
      exact .fizzle mode aim there living
  · simp only [land, mode, foes, Bool.false_eq_true, if_false]
    exact .area mode

theorem aimed_of_present {h : DelayedHit} (aimed : h.Aimed b)
    (present : ∀ id f, b.fighter? id = some f → ∃ f', b'.fighter? id = some f') : h.Aimed b' := by
  refine ⟨aimed.caster, ?_⟩
  obtain ⟨mode, i, f, aim, there⟩ | area := aimed.aim
  · obtain ⟨f', there'⟩ := present (.enemy i) f there
    exact .inl ⟨mode, i, f', aim, there'⟩
  · exact .inr area

theorem Quiet.present (h : b.Quiet b') {id : FighterId} {f : Fighter}
    (there : b.fighter? id = some f) : ∃ f', b'.fighter? id = some f' := by
  obtain ⟨f', there', _⟩ := h.ledgers id f there
  exact ⟨f', there'⟩

theorem present_of_steps (steps : Steps b b') (sound : b.Sound) {id : FighterId} {f : Fighter}
    (there : b.fighter? id = some f) : ∃ f', b'.fighter? id = some f' := by
  obtain ⟨_, _, fates⟩ := steps.fates sound
  have present := fates.present id
  rw [there, Option.isSome_some] at present
  exact Option.isSome_iff_exists.mp present

/-- Whatever a hit does, the targets of the others are still there. -/
theorem volley_landAll {hits : List DelayedHit} (aimed : ∀ h ∈ hits, h.Aimed b) :
    Volley b hits (hits.foldl land b) := by
  induction hits generalizing b with
  | nil => exact .done
  | cons h hs ih =>
    rw [List.forall_mem_cons] at aimed
    exact .next (land_lands aimed.1) (ih fun h' there =>
      aimed_of_present (aimed.2 h' there) fun _ _ => (land_quiet b h).present)

theorem volley_fireDelayed (aimed : ∀ h ∈ b.delayed.tick.1, h.Aimed b) :
    Volley { b with delayed := b.delayed.tick.2 } b.delayed.tick.1 b.fireDelayed :=
  volley_landAll fun h due => aimed_of_present (aimed h due) fun id f there =>
    ⟨f, (fighter?_congr rfl rfl id).trans there⟩

theorem fireDelayed_queue (b : Battle) :
    b.fireDelayed.delayed = b.delayed.tick.2 ∧ b.fireDelayed.queuings = b.queuings := by
  have landed := (landAll_quiet b.delayed.tick.1 { b with delayed := b.delayed.tick.2 }).queue
  exact ⟨landed.delayed, landed.queuings⟩

theorem beginPlayerTurn_queue (b : Battle) :
    b.beginPlayerTurn.delayed = b.delayed.tick.2 ∧ b.beginPlayerTurn.queuings = b.queuings := by
  have supplied := supplied_keepsQueue b
  have checked := (checkEnd_quiet b.supplied.fireDelayed).queue
  obtain ⟨delayed, queuings⟩ := fireDelayed_queue b.supplied
  rw [beginPlayerTurn_eq, checked.delayed, checked.queuings, delayed, queuings, supplied.delayed,
    supplied.queuings]
  exact ⟨rfl, rfl⟩

/-- A round that ends in between leaves the queue alone, and the next turn begins with a tick. -/
theorem endPlayerTurn_queue (named : b.Named) (phase : b.phase = .playerTurn) :
    (b.endPlayerTurn.phase = .battleEnd ∧ Advances 0 b b.endPlayerTurn ∧
        b.endPlayerTurn.delayed = b.delayed ∧ b.endPlayerTurn.queuings = b.queuings) ∨
      b.endPlayerTurn = b.fought.beginPlayerTurn ∧ Advances 1 b b.endPlayerTurn ∧
        b.endPlayerTurn.delayed = b.delayed.tick.2 ∧ b.endPlayerTurn.queuings = b.queuings := by
  have ended : ∀ (o : Outcome) (b₁ : Battle), b.KeepsQueue b₁ → Advances 0 b b₁ →
      (b₁.ended o).phase = .battleEnd ∧ Advances 0 b (b₁.ended o) ∧
        (b₁.ended o).delayed = b.delayed ∧ (b₁.ended o).queuings = b.queuings := by
    intro o b₁ keeps advances
    refine ⟨rfl, advances.trans (ended_advances o b₁), keeps.delayed, ?_⟩
    rw [← keeps.queuings, queuings, events_ended, List.filterMap_append]
    simp [Event.queued?, queuings]
  have fought := fought_keepsQueue named
  obtain ⟨o, _, eq⟩ | ⟨o, _, eq⟩ | ⟨_, _, eq⟩ := endPlayerTurn_cases phase
  · rw [eq]
    exact .inl (ended o _ (rested_quiet b).queue (rested_calm b).advances)
  · rw [eq]
    exact .inl (ended o _ fought (fought_advances b))
  · obtain ⟨delayed, queuings⟩ := beginPlayerTurn_queue b.fought
    have advances := (fought_advances b).trans (beginPlayerTurn_advances b.fought)
    rw [eq]
    exact .inr ⟨rfl, advances, by rw [delayed, fought.delayed], queuings.trans fought.queuings⟩

end Battle

/-! ## Sessions -/

namespace Session

/-- The hits that a call has queued. -/
def queued (s : Session) : Call → List DelayedHit
  | .play copy target => (s.call (.play copy target)).battle.delayed.drop s.battle.delayed.length
  | .endTurn | .drain => []

/-- The hits that calls in a row have queued, each with the turn in which it was queued. -/
def log (s : Session) : List Call → List Pushed
  | [] => []
  | c :: cs => (s.queued c).map (Pushed.mk s.turns) ++ (s.call c).log cs

def queuings (s : Session) : List (FighterId × Single × Int) := s.history.filterMap Event.queued?

/-- The queue and the next turn of a session, from the hits that were queued. The time is the number
of turns that have begun, and the number that the battle gives to its turn is this one, as far as
32 bits hold it. -/
structure Punctual (s : Session) (log : List Pushed) : Prop where
  turn : s.battle.turn = UInt32.ofNat s.turns
  /-- In the queue there are the hits whose turn has not begun. -/
  queue : s.battle.delayed = DelayQueue.waitingAt s.turns log
  told : s.queuings = log.map fun p => p.hit.told
  aimed : ∀ p ∈ log, p.hit.Aimed s.battle
  /-- The end of a turn ends the battle with the queue as it is, or the next turn begins and the
  hits land whose turn it is. -/
  rounds : ∀ b, s.battle.endTurn = .ok b →
    (b.phase = .battleEnd ∧ Battle.Advances 0 s.battle b ∧ b.delayed = s.battle.delayed) ∨
      Battle.Advances 1 s.battle b ∧
        ∃ b₁, Battle.Volley
            { s.battle.fought.supplied with
              delayed := DelayQueue.waitingAt (s.turns + 1) log }
            (DelayQueue.dueAt (s.turns + 1) log) b₁ ∧
          b = b₁.checkEnd.2

/-- The part that holds on from call to call. -/
structure Logged (s : Session) (log : List Pushed) : Prop where
  idle : s.Idle
  sound : s.battle.Sound
  named : s.battle.Named
  turn : s.battle.turn = UInt32.ofNat s.turns
  queue : s.battle.delayed = DelayQueue.waitingAt s.turns log
  told : s.queuings = log.map fun p => p.hit.told
  early : ∀ p ∈ log, p.time ≤ s.turns
  delays : ∀ p ∈ log, Amount.InRange p.hit.remaining
  aimed : ∀ p ∈ log, p.hit.Aimed s.battle

theorem queuings_eq (s : Session) :
    s.queuings = s.drained.filterMap Event.queued? ++ s.battle.queuings := by
  rw [queuings, history, List.filterMap_append]
  rfl

variable {s : Session} {log : List Pushed} {b : Battle}

/-- What is due has its target still, if a target it has. -/
theorem Logged.aimed_of_due (h : s.Logged log) {hit : DelayedHit} {n : Nat}
    (due : hit ∈ DelayQueue.dueAt n log) : hit.Aimed s.battle.fought.supplied := by
  obtain ⟨p, there, rfl⟩ := List.mem_map.mp due
  have own := h.aimed p (List.mem_of_mem_filter there)
  have steps : Steps s.battle s.battle.fought.supplied :=
    (Battle.fought_steps _).trans (Battle.supplied_steps _)
  exact Battle.aimed_of_present ⟨own.caster, own.aim⟩ fun id f hf =>
    Battle.present_of_steps steps h.sound hf

theorem Logged.punctual (h : s.Logged log) : s.Punctual log := by
  refine ⟨h.turn, h.queue, h.told, h.aimed, fun b ended => ?_⟩
  obtain ⟨phase, eq⟩ := Battle.endTurn_eq_ok ended
  have queue := Battle.endPlayerTurn_queue h.named phase
  rw [← eq] at queue
  obtain ⟨finished, advances, delayed, _⟩ | ⟨eq, advances, _, _⟩ := queue
  · exact .inl ⟨finished, advances, delayed⟩
  · have queue : s.battle.fought.supplied.delayed = DelayQueue.waitingAt s.turns log := by
      rw [(Battle.supplied_keepsQueue _).delayed, (Battle.fought_keepsQueue h.named).delayed,
        h.queue]
    have ticked := DelayQueue.tick_waitingAt h.early h.delays
    have aimed : ∀ hit ∈ s.battle.fought.supplied.delayed.tick.1,
        hit.Aimed s.battle.fought.supplied := by
      rw [queue, ticked]
      exact fun _ => h.aimed_of_due
    have volley := Battle.volley_fireDelayed aimed
    rw [queue, ticked] at volley
    refine .inr ⟨advances, _, volley, ?_⟩
    rw [eq, Battle.beginPlayerTurn_eq]

/-! ## What a call does to the log -/

/-- Steps of the battle in which turns begin and hits join the queue. -/
theorem Logged.grow (h : s.Logged log) (hits : List DelayedHit)
    (idle : b.player.piles.inPlay = none) (steps : Steps s.battle b) {n : Nat}
    (advances : Battle.Advances n s.battle b)
    (queue : b.delayed =
      DelayQueue.waitingAt (s.turns + n) (log ++ hits.map (Pushed.mk s.turns)))
    (told : b.queuings = s.battle.queuings ++ hits.map DelayedHit.told)
    (valid : ∀ hit ∈ hits, Amount.InRange hit.remaining ∧ hit.Aimed b) :
    Logged { s with battle := b } (log ++ hits.map (Pushed.mk s.turns)) where
  idle := idle
  sound := steps.sound h.sound
  named := steps.named h.named
  turn := by rw [turns_of_advances advances, advances.turn, h.turn, UInt32.ofNat_add]
  queue := by rw [turns_of_advances advances]; exact queue
  told := by
    have before := h.told
    rw [queuings_eq] at before ⊢
    rw [told, ← List.append_assoc, before, List.map_append, List.map_map]
    rfl
  early := by
    rw [turns_of_advances advances, List.forall_mem_append, List.forall_mem_map]
    exact ⟨fun p there => (h.early p there).trans (Nat.le_add_right _ n),
      fun _ _ => Nat.le_add_right _ n⟩
  delays := by
    rw [List.forall_mem_append, List.forall_mem_map]
    exact ⟨h.delays, fun hit there => (valid hit there).1⟩
  aimed := by
    rw [List.forall_mem_append, List.forall_mem_map]
    exact ⟨fun p there => Battle.aimed_of_present (h.aimed p there) fun _ _ hf =>
      Battle.present_of_steps steps h.sound hf, fun hit there => (valid hit there).2⟩

theorem Logged.play (h : s.Logged log) {copy : Nat} {target : Option FighterId}
    (played : s.battle.play copy target = .ok b) :
    Logged { s with battle := b } (log ++
      (b.delayed.drop s.battle.delayed.length).map (Pushed.mk s.turns)) := by
  obtain ⟨hits, delayed, told, cast⟩ := Battle.play_queues played
  have steps := Battle.play_steps h.idle played
  rw [delayed, List.drop_left]
  refine h.grow hits (Battle.discarded_of_play played).1 steps (Battle.play_advances played) ?_ told
    fun hit there => ?_
  · rw [delayed, Nat.add_zero, DelayQueue.waitingAt_append,
      DelayQueue.waitingAt_pushed _ hits fun hit there => (cast hit there).delay, h.queue]
  · have own := cast hit there
    refine ⟨own.delay, own.caster, ?_⟩
    obtain ⟨mode, aim, some⟩ | area := own.aim
    · obtain ⟨t, rfl⟩ := Option.isSome_iff_exists.mp some
      obtain ⟨i, rfl, f, hf⟩ := Battle.enemy_of_play played
      obtain ⟨f', hf'⟩ := Battle.present_of_steps steps h.sound hf
      exact .inl ⟨mode, i, f', aim, hf'⟩
    · exact .inr area

theorem Logged.endTurn (h : s.Logged log) (ended : s.battle.endTurn = .ok b) :
    Logged { s with battle := b } log := by
  have idle : b.player.piles.inPlay = none := by
    have kept := idle_call s .endTurn h.idle
    rw [Session.call, ended] at kept
    exact kept
  obtain ⟨phase, eq⟩ := Battle.endTurn_eq_ok ended
  have steps := (Battle.endPlayerTurn_stages s.battle).steps
  have queue := Battle.endPlayerTurn_queue h.named phase
  rw [← eq] at steps queue
  have grown := fun n => h.grow (b := b) (n := n) [] idle steps
  simp only [List.map_nil, List.append_nil] at grown
  obtain ⟨_, advances, delayed, told⟩ | ⟨_, advances, delayed, told⟩ := queue
  · refine grown 0 advances ?_ told (List.forall_mem_nil _)
    rw [delayed, Nat.add_zero, h.queue]
  · refine grown 1 advances ?_ told (List.forall_mem_nil _)
    rw [delayed, h.queue, DelayQueue.tick_waitingAt h.early h.delays]

theorem Logged.call (h : s.Logged log) (c : Call) :
    (s.call c).Logged (log ++ (s.queued c).map (Pushed.mk s.turns)) := by
  have still : Logged s (log ++ ([] : List DelayedHit).map (Pushed.mk s.turns)) := by
    rw [List.map_nil, List.append_nil]
    exact h
  cases c with
  | drain =>
    have kept := history_drain s
    have told : (s.call .drain).queuings = s.queuings := by rw [queuings, kept, queuings]
    have count : (s.call .drain).turns = s.turns := by rw [turns, kept, turns]
    have same : ∀ id, (s.call .drain).battle.fighter? id = s.battle.fighter? id := fun _ => rfl
    exact
      { still with
        turn := by rw [count]; exact still.turn
        queue := by rw [count]; exact still.queue
        early := by rw [count]; exact still.early
        told := told.trans still.told
        aimed := fun p there => Battle.aimed_of_present (still.aimed p there) fun id f hf =>
          ⟨f, (same id).trans hf⟩ }
  | play copy target =>
    cases played : s.battle.play copy target with
    | error _ => simpa only [queued, Session.call, played, List.drop_length] using still
    | ok b => simpa only [queued, Session.call, played] using h.play played
  | endTurn =>
    cases ended : s.battle.endTurn with
    | error _ => simpa only [queued, Session.call, ended] using still
    | ok b =>
      simpa only [queued, Session.call, ended, List.map_nil, List.append_nil] using h.endTurn ended

/-- By induction on the calls. -/
theorem Logged.run (h : s.Logged log) (calls : List Call) :
    (s.run calls).Logged (log ++ s.log calls) := by
  induction calls generalizing s log with
  | nil =>
    rw [Session.log, List.append_nil]
    exact h
  | cons c cs ih =>
    have next := ih (h.call c)
    rw [List.append_assoc] at next
    exact next

/-- When a battle has started nothing is queued. -/
theorem logged_start {c : Catalog} {settings : Settings} {seed : UInt64} {deck : List String}
    {foes : List Foe} (h : Battle.start c settings seed deck foes = .ok b) :
    Logged { battle := b } [] := by
  obtain ⟨b₀, built, begun⟩ := Battle.exists_build_of_start h
  obtain ⟨_, _, _, _, _, fresh⟩ := Battle.build_eq_ok built
  have opened : b₀.KeepsQueue (b₀.emit (.phaseChanged .battleStart)).refreshIntents :=
    ((Battle.quiet_emit (by rfl) b₀).trans
      (Battle.quiet_foldl (fun b id => Battle.chooseIntent_quiet id b) _ _)).queue
  obtain ⟨delayed, queuings⟩ := Battle.beginPlayerTurn_queue
    (b₀.emit (.phaseChanged .battleStart)).refreshIntents
  have empty : b.delayed = [] := by
    rw [begun, Battle.begin, delayed, opened.delayed, fresh]
    rfl
  have silent : b.queuings = [] := by
    rw [begun, Battle.begin, queuings, opened.queuings, fresh]
    rfl
  exact ⟨idle_start h, sound_run h [], named_run h [], (course_start h).numbers.2, empty, silent,
    List.forall_mem_nil _, List.forall_mem_nil _, List.forall_mem_nil _⟩

/-- Delayed hits in a queue and in a battle: whatever is pushed is due at its date, and a hit that
is queued in a battle lands at the beginning of the turn that is its date. -/
theorem punctual_run :
    (∀ actions : List DelayQueue.Action,
      (∀ h, .push h ∈ actions → Amount.InRange h.remaining) →
        DelayQueue.follow actions [] =
          ((List.range (DelayQueue.ticks actions)).map fun k =>
              DelayQueue.dueAt (k + 1) (DelayQueue.pushes 0 actions),
            DelayQueue.waitingAt (DelayQueue.ticks actions) (DelayQueue.pushes 0 actions))) ∧
      ∀ {c : Catalog} {settings : Settings} {seed : UInt64} {deck : List String}
        {foes : List Foe} {b : Battle}, Battle.start c settings seed deck foes = .ok b →
          ∀ calls : List Call,
            (run { battle := b } calls).Punctual (Session.log { battle := b } calls) :=
  ⟨fun _ valid => DelayQueue.follow_empty valid,
    fun h calls => ((logged_start h).run calls).punctual⟩

/-- The hit that the meteor of the sample content queues. -/
def meteor (turns : Int) : DelayedHit :=
  { DelayedHit.area .player (.finite 18) turns with element := .fire }

/-- A battle of the sample content: a meteor that is cast in the first turn is due in the third. -/
theorem exists_meteor :
    ∃ b, Battle.start Sample.catalog Sample.settings 1 ["meteor"] [{ monsterId := "slime" }] =
        .ok b ∧
      (run { battle := b } [.play 0 none, .endTurn]).turns = 2 ∧
      DelayQueue.dueAt 3 (Session.log { battle := b } [.play 0 none, .endTurn]) = [meteor 0] := by
  have started : ∃ b, Battle.start Sample.catalog Sample.settings 1 ["meteor"]
      [{ monsterId := "slime" }] = .ok b :=
    Battle.exists_start _ _ nofun nofun rfl rfl
  obtain ⟨b, h⟩ := started
  have seen : (Battle.start Sample.catalog Sample.settings 1 ["meteor"]
      [{ monsterId := "slime" }]).toOption.map (fun b =>
        ((run { battle := b } [.play 0 none, .endTurn]).turns,
          DelayQueue.dueAt 3 (Session.log { battle := b } [.play 0 none, .endTurn]))) =
      some (2, [meteor 0]) := by
    decide +kernel
  rw [h] at seen
  obtain ⟨turns, due⟩ := Prod.mk.inj (Option.some.inj seen)
  exact ⟨b, h, turns, due⟩

/-- In a queue of its own the meteor is returned by the second tick; in the battle it lands when the
third turn begins. -/
theorem punctual_meteor :
    DelayQueue.follow [.push (meteor 2), .tick, .tick] [] = ([[], [meteor 0]], []) ∧
      ∃ b, Battle.start Sample.catalog Sample.settings 1 ["meteor"]
          [{ monsterId := "slime" }] = .ok b ∧
        (run { battle := b } [.play 0 none, .endTurn]).turns = 2 ∧
        DelayQueue.dueAt 3 (Session.log { battle := b } [.play 0 none, .endTurn]) = [meteor 0] ∧
        Punctual (run { battle := b } [.play 0 none, .endTurn])
          (Session.log { battle := b } [.play 0 none, .endTurn]) := by
  obtain ⟨b, h, turns, due⟩ := exists_meteor
  have delay : ∀ hit, DelayQueue.Action.push hit ∈ [.push (meteor 2), .tick, .tick] →
      Amount.InRange hit.remaining := by
    simp [meteor, DelayedHit.area, Amount.InRange, Amount.least, Amount.greatest]
  refine ⟨?_, b, h, turns, due, punctual_run.2 h _⟩
  rw [punctual_run.1 _ delay]
  decide +kernel

end Session
end CardBattle
