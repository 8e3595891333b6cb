import CardBattle.Proofs.Reprint
import CardBattle.Proofs.Round

/-!
# CardBattle.Proofs.Faithful

Reprints that a battle cannot tell from the originals. A battle sees the identifier of a card, its
cost, its element, its gauge shifts, and what its slots do when they run. A reprint that keeps
these commutes with everything that can happen in a battle, from its start to its last call.

* `Faithful`: what a reprint has to keep.
* `Frame.echo_natural`: echoes commute, by induction on the links of the chain that are left.
* `Battle.play_reprint`, `Battle.endTurn_reprint`, `Battle.start_reprint`: the calls.
* `Session.run_reprint`: all calls in a row.
-/

namespace CardBattle

namespace Frame

variable {g : Card → Card} {echo : Echo} {frame : Frame}

/-- A way to echo on behalf of a frame that does not look at its slots. -/
def Echo.Blind (echo : Echo) : Prop :=
  ∀ (frame : Frame) (slots : List Slot) (place : Nat) (p : Progress),
    echo { frame with slots } place p = echo frame place p

theorem echo_blind (links : Nat) : Echo.Blind (Frame.echo links) := by
  intro frame slots place p
  cases links <;> rfl

end Frame

/-- A reprint that keeps what a battle can see of a card. -/
structure Faithful (g : Card → Card) : Prop where
  id : ∀ c, (g c).id = c.id
  cost : ∀ c, (g c).cost = c.cost
  element : ∀ c, (g c).element = c.element
  angelShift : ∀ c, (g c).angelShift = c.angelShift
  demonShift : ∀ c, (g c).demonShift = c.demonShift
  /-- On behalf of everyone, at every point of a resolution, the slots do the same. -/
  slots : ∀ (c : Card) {echo : Frame.Echo}, echo.Blind → ∀ (frame : Frame) (p : Progress),
    { frame with slots := (g c).slots.items }.runCard echo p =
      { frame with slots := c.slots.items }.runCard echo p

variable {g : Card → Card}

theorem CardCopy.cost_reprint (faithful : Faithful g) (c : CardCopy) :
    (c.reprint g).cost = c.cost := by
  simp only [CardCopy.cost, CardCopy.reprint, faithful.cost]

theorem CardCopy.reduceCost_reprint (faithful : Faithful g) (amount : Int) (c : CardCopy) :
    (c.reprint g).reduceCost amount = (c.reduceCost amount).reprint g := by
  simp only [CardCopy.reduceCost, CardCopy.cost_reprint faithful]
  rfl

theorem Piles.reduceCost?_reprint (faithful : Faithful g) (id : Nat) (amount : Int) (p : Piles) :
    (p.reprint g).reduceCost? id amount =
      (p.reduceCost? id amount).map fun reduced => (reduced.1, reduced.2.reprint g) := by
  have same := CardCopy.reduceCost_reprint faithful amount
  simp only [Piles.reduceCost?, Piles.activeCopy?_reprint, Piles.updateActive_reprint p same]
  cases p.activeCopy? id with
  | none => rfl
  | some c => simp only [Option.map_some, same, CardCopy.cost_reprint faithful]

theorem Battle.reduceCost_reprint (faithful : Faithful g) (copy : Nat) (amount : Int) (b : Battle) :
    (b.reprint g).reduceCost copy amount = (b.reduceCost copy amount).reprint g := by
  simp only [Battle.reduceCost, Battle.piles_reprint, Piles.reduceCost?_reprint faithful]
  cases b.player.piles.reduceCost? copy amount <;> rfl

namespace Progress

/-- A resolution in a battle with other cards. -/
def reprint (g : Card → Card) (p : Progress) : Progress := p.map (Battle.reprint g)

@[simp] theorem battle_reprint (p : Progress) : (p.reprint g).battle = p.battle.reprint g := rfl

@[simp] theorem killed_reprint (p : Progress) : (p.reprint g).killed = p.killed := rfl

theorem map_reprint (act : Battle → Battle) (h : ∀ b, act (b.reprint g) = (act b).reprint g)
    (p : Progress) : (p.reprint g).map act = (p.map act).reprint g := by
  simp only [reprint, map, h]

@[simp] theorem strike_reprint (caster : FighterId) (x : Single) (p : Progress) (t : FighterId) :
    (p.reprint g).strike caster x t = (p.strike caster x t).reprint g := by
  simp only [strike, battle_reprint, killed_reprint, Battle.strike_reprint]
  rfl

theorem foldl_reprint {α : Type} {act : Progress → α → Progress}
    (h : ∀ p a, act (p.reprint g) a = (act p a).reprint g) (as : List α) (p : Progress) :
    as.foldl act (p.reprint g) = (as.foldl act p).reprint g :=
  List.foldl_hom (reprint g) h

end Progress

/-! ## Resolutions -/

namespace Frame

open Battle

variable {echo : Echo} {frame : Frame} (p : Progress)

@[simp] theorem singleTarget?_reprint (b : Battle) :
    frame.singleTarget? (b.reprint g) = frame.singleTarget? b := by
  simp only [singleTarget?, isAlive_reprint]

@[simp] theorem buffTargets_reprint (scope : BuffScope) (b : Battle) :
    frame.buffTargets scope (b.reprint g) = frame.buffTargets scope b := by
  cases scope <;> simp only [buffTargets, singleTarget?_reprint, opponents_reprint]

@[simp] theorem delayedHit?_reprint (mode : DelayMode) (x : Single) (turns : Int) (b : Battle) :
    frame.delayedHit? mode x turns (b.reprint g) = frame.delayedHit? mode x turns b := by
  cases mode <;> simp only [delayedHit?, singleTarget?_reprint]

@[simp] theorem admits_reprint (s : Slot) : frame.admits (p.reprint g) s = frame.admits p s := by
  have same : Subjects.of (p.battle.reprint g) frame.caster p.killed =
      Subjects.of p.battle frame.caster p.killed := by
    simp only [Subjects.of, fighter?_reprint, angel_reprint, demon_reprint, actionPoints_reprint]
  simp only [admits, Progress.battle_reprint, Progress.killed_reprint, same]

/-- A way to echo that commutes with a reprint. -/
def Echo.Natural (g : Card → Card) (echo : Echo) : Prop :=
  ∀ frame place p, echo frame place (p.reprint g) = (echo frame place p).reprint g

theorem castMore_reprint (natural : echo.Natural g) (side : Side) (distance : Nat) :
    frame.castMore echo side distance (p.reprint g) =
      (frame.castMore echo side distance p).reprint g := by
  simp only [castMore, Progress.battle_reprint, piles_reprint, Piles.neighbor?_reprint]
  cases frame.source with
  | none => rfl
  | some source =>
    simp only
    cases p.battle.player.piles.neighbor? source.anchor side distance with
    | none => rfl
    | some found => exact natural frame found.1 p

theorem execute_reprint (faithful : Faithful g) (natural : echo.Natural g) (e : Effect) :
    frame.execute echo (p.reprint g) e = (frame.execute echo p e).reprint g := by
  cases e with
  | damageTarget x =>
    simp only [execute, Progress.battle_reprint, singleTarget?_reprint, Progress.strike_reprint]
    split <;> rfl
  | damageOpponents x =>
    simp only [execute, Progress.battle_reprint, opponents_reprint]
    exact Progress.foldl_reprint (Progress.strike_reprint frame.caster x) _ p
  | damageSelf x => exact Progress.map_reprint _ (fun b => hurtSelf_reprint g b frame.caster x) p
  | healSelf x =>
    exact Progress.map_reprint (fun b => (b.heal frame.caster x).2)
      (fun b => congrArg Prod.snd (heal_reprint g b frame.caster x)) p
  | healSelfPercent x =>
    exact Progress.map_reprint _ (fun b => healPercent_reprint g b frame.caster x) p
  | shiftGauge gauge delta =>
    refine Progress.map_reprint (fun b => (b.shiftGauge gauge delta).emitGauges) (fun b => ?_) p
    rw [shiftGauge_reprint, emitGauges_reprint]
  | gainAction n =>
    simp only [execute]
    split <;> rfl
  | reduceCost n =>
    simp only [execute]
    split
    · rfl
    · exact Progress.map_reprint _ (Battle.reduceCost_reprint faithful _ n) p
  | drawCards n => exact Progress.map_reprint (·.drawCards n) (fun b => drawCards_reprint g b n) p
  | burn pile n =>
    exact Progress.map_reprint (·.destroyCards pile n) (fun b => destroyCards_reprint g b pile n) p
  | cleanseSelf n => exact Progress.map_reprint _ (fun b => cleanse_reprint g b frame.caster n) p
  | applyBuff scope spec =>
    simp only [execute]
    split
    · rfl
    · rename_i buff _
      refine Progress.map_reprint _ (fun b => ?_) p
      rw [buffTargets_reprint]
      exact Battle.foldl_reprint (fun b t => applyBuff_reprint g b t buff) _ b
  | castMore side distance => exact castMore_reprint p natural side distance
  | delay mode x turns =>
    simp only [execute, Progress.battle_reprint, delayedHit?_reprint]
    split <;> rfl
  | spendRepeat _ _ _ => rfl

theorem runSlot_reprint (faithful : Faithful g) (natural : echo.Natural g) (s : Slot) :
    frame.runSlot echo (p.reprint g) s = (frame.runSlot echo p s).reprint g := by
  simp only [runSlot, admits_reprint, execute_reprint p faithful natural]
  split
  · rfl
  · split
    · split <;> rfl
    · rfl

theorem runSlots_reprint (faithful : Faithful g) (natural : echo.Natural g) (slots : List Slot) :
    frame.runSlots echo slots (p.reprint g) = (frame.runSlots echo slots p).reprint g :=
  Progress.foldl_reprint (fun p s => runSlot_reprint p faithful natural s) slots p

theorem runRepeats_reprint (faithful : Faithful g) (natural : echo.Natural g) (slots : List Slot)
    (meter : Meter) (cost : Int) (n : Nat) :
    frame.runRepeats echo slots meter cost n (p.reprint g) =
      (frame.runRepeats echo slots meter cost n p).reprint g := by
  induction n generalizing p with
  | zero => rfl
  | succ n ih =>
    simp only [runRepeats, Progress.battle_reprint, pay?_reprint]
    cases p.battle.pay? frame.caster meter cost with
    | none => rfl
    | some b =>
      have paid : ({ p.reprint g with battle := b.reprint g } : Progress) =
          ({ p with battle := b } : Progress).reprint g := rfl
      simp only [Option.map_some]
      rw [paid, runSlots_reprint _ faithful natural, ih]

theorem runCard_reprint (faithful : Faithful g) (natural : echo.Natural g) :
    frame.runCard echo (p.reprint g) = (frame.runCard echo p).reprint g := by
  simp only [runCard, runSlots_reprint p faithful natural]
  split
  · rfl
  · simp only [runRepeatSlot, admits_reprint, runRepeats_reprint _ faithful natural]
    split
    · split <;> rfl
    · rfl

/-- By induction on the links of the chain that are left: the card that is found is the reprint of
the one that was there, and its slots do the same. -/
theorem echo_natural (faithful : Faithful g) (links : Nat) :
    Echo.Natural g (Frame.echo links) := by
  induction links with
  | zero => exact fun _ _ _ => rfl
  | succ links ih =>
    intro frame place p
    simp only [Frame.echo, Progress.battle_reprint, piles_reprint, Piles.hand_reprint,
      List.getElem?_map]
    cases p.battle.player.piles.hand[place]? with
    | none => rfl
    | some c =>
      have told : (p.reprint g).map (fun b => b.emit (.cardEchoed c.id (g c.card).id)) =
          (p.map fun b => b.emit (.cardEchoed c.id c.card.id)).reprint g := by
        rw [faithful.id]
        rfl
      have printed : frame.ofEcho place (c.reprint g) =
          { frame.ofEcho place c with slots := (g c.card).slots.items } := by
        simp only [ofEcho, CardCopy.reprint, faithful.element]
      simp only [Option.map_some, CardCopy.id_reprint]
      rw [printed, faithful.slots _ (echo_blind links)]
      exact (congrArg _ told).trans (runCard_reprint _ faithful ih)

end Frame

namespace PlayedCopy

def reprint (g : Card → Card) (c : PlayedCopy) : PlayedCopy := { c with card := g c.card }

theorem frame_reprint (faithful : Faithful g) (c : PlayedCopy) (target : Option FighterId) :
    (c.reprint g).frame target = { c.frame target with slots := (g c.card).slots.items } := by
  simp only [frame, reprint, faithful.element, source]

/-- A played reprint runs as the original. -/
theorem runCard_reprint (faithful : Faithful g) {echo : Frame.Echo} (blind : echo.Blind)
    (c : PlayedCopy) (target : Option FighterId) (p : Progress) :
    ((c.reprint g).frame target).runCard echo p = (c.frame target).runCard echo p := by
  rw [c.frame_reprint faithful, faithful.slots _ blind]
  rfl

end PlayedCopy

namespace Battle

open CardBattle.Frame

variable (b : Battle) (faithful : Faithful g)
include faithful

theorem echoCopy_reprint (frame : Frame) (p : Progress) (id : Nat) :
    echoCopy frame (p.reprint g) id = (echoCopy frame p id).reprint g := by
  simp only [echoCopy, Progress.battle_reprint, piles_reprint, Piles.handPlace?_reprint,
    settings_reprint]
  split
  · rfl
  · exact echo_natural faithful _ _ _ _

/-- The copies that swift echoes are echoed on behalf of the played copy, whose slots do not
matter. -/
theorem echoCopy_printed (c : PlayedCopy) (target : Option FighterId) :
    echoCopy ((c.reprint g).frame target) = echoCopy (c.frame target) := by
  funext p id
  simp only [echoCopy]
  split
  · rfl
  · rw [c.frame_reprint faithful, echo_blind]

theorem applyShifts_reprint (card : Card) :
    applyShifts (g card) (b.reprint g) = (applyShifts card b).reprint g := by
  simp only [applyShifts, faithful.angelShift, faithful.demonShift, shiftGauge_reprint,
    emitGauges_reprint]
  split <;> rfl

omit faithful in
theorem swiftCopies_reprint (anchor : Anchor) (reach : SwiftReach) :
    (b.reprint g).swiftCopies anchor reach = b.swiftCopies anchor reach := by
  simp only [swiftCopies, piles_reprint, Piles.neighbor?_reprint, Option.map_map]
  rfl

theorem resolveCard_reprint (c : PlayedCopy) (target : Option FighterId) :
    (b.reprint g).resolveCard (c.reprint g) target =
      ((b.resolveCard c target).1, (b.resolveCard c target).2.reprint g) := by
  have begun : ∀ b₁ : Battle, ({ battle := b₁.reprint g, killed := false } : Progress) =
      ({ battle := b₁, killed := false } : Progress).reprint g := fun _ => rfl
  have shifted : ∀ p : Progress, (p.reprint g).map (applyShifts (c.reprint g).card) =
      (p.map (applyShifts c.card)).reprint g := fun p => by
    simp only [Progress.map, Progress.reprint, PlayedCopy.reprint, applyShifts_reprint _ faithful]
  have echoed : ∀ (ids : List Nat) (p : Progress),
      ids.foldl (echoCopy (c.frame target)) (p.reprint g) =
        (ids.foldl (echoCopy (c.frame target)) p).reprint g :=
    Progress.foldl_reprint (echoCopy_reprint faithful _)
  simp only [resolveCard, takeSwift_reprint, settings_reprint, begun,
    c.runCard_reprint faithful (echo_blind _), echoCopy_printed faithful,
    Frame.runCard_reprint _ faithful (echo_natural faithful _), shifted, Progress.battle_reprint,
    swiftCopies_reprint]
  split
  · rfl
  · rw [echoed]
    rfl

theorem resolveSkill_reprint (enemy : FighterId) (skill : Skill) (attack : Int) :
    (b.reprint g).resolveSkill enemy skill attack =
      ((b.resolveSkill enemy skill attack).1,
        (b.resolveSkill enemy skill attack).2.reprint g) := by
  have begun : ({ battle := b.reprint g, killed := false } : Progress) =
      ({ battle := b, killed := false } : Progress).reprint g := rfl
  simp only [resolveSkill, settings_reprint, begun,
    Frame.runCard_reprint _ faithful (echo_natural faithful _), Progress.battle_reprint,
    Progress.killed_reprint]

/-! ## Turns -/

theorem performIntent_reprint (id : FighterId) :
    (b.reprint g).performIntent id =
      ((b.performIntent id).1, (b.performIntent id).2.reprint g) := by
  simp only [performIntent, enemy?_reprint, updateEnemy_reprint, emit_reprint,
    resolveSkill_reprint _ faithful]
  split
  · rfl
  · split
    · split <;> rfl
    · rfl

theorem enemyActs_reprint (id : FighterId) :
    (b.reprint g).enemyActs id = (b.enemyActs id).reprint g := by
  simp only [enemyActs, isAlive_reprint, startBuffs_reprint, performIntent_reprint _ faithful]
  split
  · split <;> rfl
  · rfl

/-- By induction on the enemies that are still to act. -/
theorem enemiesAct_reprint (ids : List FighterId) :
    enemiesAct ids (b.reprint g) = (enemiesAct ids b).reprint g := by
  induction ids generalizing b with
  | nil => rfl
  | cons id ids ih =>
    simp only [enemiesAct, enemyActs_reprint _ faithful, fighter_reprint, ih]
    split <;> rfl

theorem runEnemyTurn_reprint : (b.reprint g).runEnemyTurn = b.runEnemyTurn.reprint g := by
  simp only [runEnemyTurn, living_reprint, enemiesAct_reprint _ faithful, fighter_reprint]
  split
  · exact foldl_reprint (enemyRests_reprint g) _ _
  · rfl

omit faithful in
theorem awoken_reprint : (b.reprint g).awoken = (b.awoken.1, b.awoken.2.reprint g) := by
  have begun : (b.reprint g).turnBegun.resetActionPoints =
      b.turnBegun.resetActionPoints.reprint g := rfl
  simp only [awoken, begun, startBuffs_reprint]

omit faithful in
theorem supplied_reprint : (b.reprint g).supplied = b.supplied.reprint g := by
  simp only [supplied, awoken_reprint, grantCards_reprint]
  split <;> rw [settings_reprint, drawCards_reprint]

omit faithful in
theorem beginPlayerTurn_reprint : (b.reprint g).beginPlayerTurn = b.beginPlayerTurn.reprint g := by
  rw [beginPlayerTurn_eq, supplied_reprint, fireDelayed_reprint, checkEnd_reprint,
    beginPlayerTurn_eq]

theorem endPlayerTurn_reprint : (b.reprint g).endPlayerTurn = b.endPlayerTurn.reprint g := by
  simp only [endPlayerTurn, endBuffs_reprint, discardHand_reprint, checkEnd_reprint]
  generalize (b.endBuffs .player).discardHand.checkEnd = rested
  obtain ⟨_ | _, b₁⟩ := rested
  · simp only [setPhase_reprint, runEnemyTurn_reprint _ faithful, checkEnd_reprint]
    generalize (b₁.setPhase .enemyTurn).runEnemyTurn.checkEnd = fought
    obtain ⟨_ | _, b₂⟩ := fought
    · exact beginPlayerTurn_reprint b₂
    · rfl
  · rfl

/-! ## Calls -/

theorem endTurn_reprint : (b.reprint g).endTurn = b.endTurn.map (reprint g) := by
  simp only [endTurn, phase_reprint, endPlayerTurn_reprint _ faithful]
  split <;> rfl

omit faithful in
theorem finishPlay_reprint : (b.reprint g).finishPlay = b.finishPlay.reprint g := by
  simp only [finishPlay, piles_reprint, Piles.finishPlay_reprint]
  generalize b.player.piles.finishPlay = finished
  obtain ⟨_ | id, piles⟩ := finished
  · exact congrArg Prod.snd (checkEnd_reprint g b)
  · exact congrArg Prod.snd (checkEnd_reprint g
      (({ b with player := { b.player with piles } } : Battle).emit (.cardsDiscarded [id])))

theorem opened_reprint (c : CardCopy) (piles : Piles) (target : Option FighterId) :
    (b.reprint g).opened (c.reprint g) (piles.reprint g) target =
      (b.opened c piles target).reprint g := by
  have id : (c.reprint g).card.id = c.card.id := faithful.id c.card
  simp only [opened, CardCopy.cost_reprint faithful, CardCopy.id_reprint, id, Player.spendAction?,
    actionPoints_reprint]
  split <;> rfl

theorem playCopy_reprint (place : Nat) (c : CardCopy) (piles : Piles) (target : Option FighterId) :
    (b.reprint g).playCopy place (c.reprint g) (piles.reprint g) c.cost target =
      (b.playCopy place c piles c.cost target).reprint g := by
  have same := CardCopy.cost_reprint faithful c
  rw [← same, playCopy_eq, same, playCopy_eq, opened_reprint _ faithful]
  have resolved := resolveCard_reprint (b.opened c piles target) faithful
    { copy := c.id, card := c.card, place } target
  exact (congrArg (fun r => r.2.finishPlay) resolved).trans (finishPlay_reprint _)

theorem play_reprint (copy : Nat) (target : Option FighterId) :
    (b.reprint g).play copy target = (b.play copy target).map (reprint g) := by
  have aim : ∀ t, (b.reprint g).isTarget t = b.isTarget t := fun t => by
    simp only [isTarget, isAlive_reprint]
  simp only [play, phase_reprint, piles_reprint, Piles.beginPlay?_reprint, actionPoints_reprint,
    aim]
  split
  · rfl
  · rfl
  · rfl
  · cases b.player.piles.beginPlay? copy with
    | none => rfl
    | some begun =>
      simp only [Option.map_some, CardCopy.cost_reprint faithful, playCopy_reprint _ faithful]
      split
      · rfl
      · split
        · rfl
        · split <;> rfl

end Battle

/-! ## The start -/

namespace Catalog

def reprint (g : Card → Card) (c : Catalog) : Catalog := { c with cards := ⟨c.cards.items.map g⟩ }

variable (c : Catalog)

theorem find?_reprint (faithful : Faithful g) (id : String) :
    (c.reprint g).cards.find? id = (c.cards.find? id).map g := by
  have same : (fun card : Card => Identified.id card == id) ∘ g =
      fun card => Identified.id card == id := by
    funext card
    exact congrArg (· == id) (faithful.id card)
  simp only [Shelf.find?, reprint, List.find?_map, same]

theorem cardsOf_reprint (faithful : Faithful g) (deck : List String) :
    (c.reprint g).cardsOf deck = (c.cardsOf deck).map (List.map g) := by
  induction deck with
  | nil => rfl
  | cons id ids ih =>
    simp only [cardsOf, find?_reprint c faithful]
    cases c.cards.find? id with
    | none => rfl
    | some card =>
      simp only [Option.map_some, ih]
      cases c.cardsOf ids <;> rfl

theorem enemiesOf_reprint (place : Nat) (foes : List Foe) :
    (c.reprint g).enemiesOf place foes = c.enemiesOf place foes := by
  induction foes generalizing place with
  | nil => rfl
  | cons foe foes ih =>
    have same : (c.reprint g).enemyOf place foe = c.enemyOf place foe := rfl
    simp only [enemiesOf, same, ih]

end Catalog

namespace Battle

variable (faithful : Faithful g) (c : Catalog) (settings : Settings) (seed : UInt64)
  (deck : List String) (foes : List Foe)

include faithful in
theorem build_reprint :
    build (c.reprint g) settings seed deck foes =
      (build c settings seed deck foes).map (reprint g) := by
  simp only [build, c.cardsOf_reprint faithful, c.enemiesOf_reprint]
  split
  · rfl
  · split
    · rfl
    · cases c.cardsOf deck with
      | error _ => rfl
      | ok cards =>
        cases c.enemiesOf 0 foes with
        | error _ => rfl
        | ok enemies =>
          simp only [Except.map, Piles.ofCards_reprint, Piles.shuffleDrawPile_reprint]
          rfl

theorem begin_reprint (b : Battle) : (b.reprint g).begin = b.begin.reprint g := by
  simp only [Battle.begin, emit_reprint, refreshIntents_reprint, beginPlayerTurn_reprint]

include faithful in
theorem start_reprint :
    start (c.reprint g) settings seed deck foes =
      (start c settings seed deck foes).map (reprint g) := by
  simp only [start, build_reprint faithful]
  cases build c settings seed deck foes <;> simp only [Except.map, begin_reprint]

end Battle

namespace Session

def reprint (g : Card → Card) (s : Session) : Session := { s with battle := s.battle.reprint g }

theorem call_reprint (faithful : Faithful g) (s : Session) (c : Call) :
    (s.reprint g).call c = (s.call c).reprint g := by
  cases c with
  | drain => rfl
  | play copy target =>
    simp only [call, reprint, Battle.play_reprint _ faithful]
    cases s.battle.play copy target <;> rfl
  | endTurn =>
    simp only [call, reprint, Battle.endTurn_reprint _ faithful]
    cases s.battle.endTurn <;> rfl

/-- By induction on the calls. -/
theorem run_reprint (faithful : Faithful g) (s : Session) (calls : List Call) :
    (s.reprint g).run calls = (s.run calls).reprint g :=
  List.foldl_hom (reprint g) (call_reprint faithful)

end Session
end CardBattle
