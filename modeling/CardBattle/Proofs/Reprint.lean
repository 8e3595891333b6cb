import CardBattle.Battle.Turn
import Mathlib.Data.List.InsertIdx

/-!
# CardBattle.Proofs.Reprint

Cards in other words. A reprint changes the cards of a battle wherever they lie, and nothing else.
The functions on piles and on battles that do not run slots commute with every reprint: they move
copies, count them and draw among them, and do not look at what is printed on them.

* `Piles.reprint`, `Battle.reprint`: the change.
* `Piles.draw_reprint`, `Piles.destroy_reprint`, `Piles.grant_reprint`: the random moves of copies.
* `Battle.hurt_reprint` and the lemmas that follow: the functions of a battle.
-/

namespace CardBattle

variable (g : Card → Card)

namespace CardCopy

def reprint (c : CardCopy) : CardCopy := { c with card := g c.card }

@[simp] theorem id_reprint (c : CardCopy) : (c.reprint g).id = c.id := rfl

end CardCopy

namespace Piles

open Chance

/-- The piles with other cards on the same copies. -/
def reprint (p : Piles) : Piles :=
  { p with
    drawPile := p.drawPile.map (CardCopy.reprint g)
    hand := p.hand.map (CardCopy.reprint g)
    discardPile := p.discardPile.map (CardCopy.reprint g)
    destroyed := p.destroyed.map (CardCopy.reprint g)
    inPlay := p.inPlay.map (CardCopy.reprint g) }

variable {σ : Type} [Generator σ] (p : Piles) (s : σ)

@[simp] theorem hand_reprint : (p.reprint g).hand = p.hand.map (CardCopy.reprint g) := rfl

@[simp] theorem inPlay_reprint : (p.reprint g).inPlay = p.inPlay.map (CardCopy.reprint g) := rfl

theorem copies_reprint (n : Nat) (cards : List Card) :
    copies n (cards.map g) = (copies n cards).map (CardCopy.reprint g) := by
  induction cards generalizing n with
  | nil => rfl
  | cons c cs ih => simp only [List.map_cons, copies, ih, CardCopy.reprint]

theorem ofCards_reprint (cards : List Card) :
    ofCards (cards.map g) = (ofCards cards).reprint g := by
  simp only [ofCards, reprint, copies_reprint, List.map_reverse, List.length_map]
  rfl

theorem shuffleDrawPile_reprint :
    (p.reprint g).shuffleDrawPile s =
      ((p.shuffleDrawPile s).1.reprint g, (p.shuffleDrawPile s).2) := by
  simp only [shuffleDrawPile, reprint, Generator.shuffle_map]

/-! ## Draws -/

theorem refill_reprint :
    (p.reprint g).refill s =
      ((p.refill s).1, (p.refill s).2.1.reprint g, (p.refill s).2.2) := by
  simp only [refill, reprint, List.isEmpty_map, Generator.shuffle_map]
  split <;> rfl

theorem drawTop?_reprint :
    (p.reprint g).drawTop? = p.drawTop?.map fun found => (found.1, found.2.reprint g) := by
  simp only [drawTop?, reprint, List.getLast?_map]
  cases p.drawPile.getLast? with
  | none => rfl
  | some top => simp [CardCopy.reprint]

theorem draw_reprint (n : Nat) :
    (p.reprint g).draw n s =
      ((p.draw n s).1, (p.draw n s).2.1.reprint g, (p.draw n s).2.2) := by
  induction n generalizing p s with
  | zero => rfl
  | succ n ih =>
    simp only [draw, refill_reprint, drawTop?_reprint]
    cases (p.refill s).2.1.drawTop? with
    | none => rfl
    | some found => simp only [Option.map_some, ih]

/-! ## Copies by number -/

theorem find_reprint (id : Nat) (cs : List CardCopy) :
    (cs.map (CardCopy.reprint g)).find? (fun c => c.id == id) =
      (cs.find? fun c => c.id == id).map (CardCopy.reprint g) := by
  rw [List.find?_map]
  rfl

@[simp] theorem handPlace?_reprint (id : Nat) : (p.reprint g).handPlace? id = p.handPlace? id := by
  simp only [handPlace?, reprint, List.findIdx?_map]
  rfl

theorem takeFromHand?_reprint (id : Nat) :
    (p.reprint g).takeFromHand? id =
      (p.takeFromHand? id).map fun taken =>
        (taken.1, taken.2.1.reprint g, taken.2.2.reprint g) := by
  simp only [takeFromHand?, handPlace?_reprint]
  cases p.handPlace? id with
  | none => rfl
  | some i =>
    simp only [reprint, List.getElem?_map]
    cases p.hand[i]? with
    | none => rfl
    | some c => simp only [Option.map_some, List.eraseIdx_map]

theorem beginPlay?_reprint (id : Nat) :
    (p.reprint g).beginPlay? id =
      (p.beginPlay? id).map fun begun =>
        (begun.1, begun.2.1.reprint g, begun.2.2.reprint g) := by
  simp only [beginPlay?, takeFromHand?_reprint]
  cases p.takeFromHand? id with
  | none => rfl
  | some taken =>
    simp only [Option.map_some, reprint, List.map_append]
    cases taken.2.2.inPlay <;> rfl

theorem finishPlay_reprint :
    (p.reprint g).finishPlay = (p.finishPlay.1, p.finishPlay.2.reprint g) := by
  simp only [finishPlay, inPlay_reprint]
  cases p.inPlay with
  | none => rfl
  | some c => simp [reprint]

theorem discardHand_reprint :
    (p.reprint g).discardHand = (p.discardHand.1, p.discardHand.2.reprint g) := by
  simp [discardHand, reprint, CardCopy.reprint, Function.comp_def]

theorem neighbor?_reprint (a : Anchor) (side : Side) (distance : Nat) :
    (p.reprint g).neighbor? a side distance =
      (p.neighbor? a side distance).map fun found => (found.1, found.2.reprint g) := by
  simp only [neighbor?]
  cases a.offset? side distance with
  | none => rfl
  | some i => simp [reprint, Function.comp_def]

/-! ## Copies that leave and copies that arrive -/

theorem pile_reprint (pile : Pile) :
    (p.reprint g).pile pile = (p.pile pile).map (CardCopy.reprint g) := by
  cases pile <;> rfl

theorem setPile_reprint (pile : Pile) (cs : List CardCopy) :
    (p.reprint g).setPile pile (cs.map (CardCopy.reprint g)) = (p.setPile pile cs).reprint g := by
  cases pile <;> rfl

theorem destroyAt?_reprint (pile : Pile) (i : Nat) :
    (p.reprint g).destroyAt? pile i =
      (p.destroyAt? pile i).map fun gone => (gone.1, gone.2.reprint g) := by
  simp only [destroyAt?, pile_reprint, List.getElem?_map]
  cases (p.pile pile)[i]? with
  | none => rfl
  | some c =>
    simp only [Option.map_some, List.eraseIdx_map, setPile_reprint, CardCopy.id_reprint]
    simp [reprint]

theorem destroy_reprint (pile : Pile) (n : Nat) :
    (p.reprint g).destroy pile n s =
      ((p.destroy pile n s).1, (p.destroy pile n s).2.1.reprint g, (p.destroy pile n s).2.2) := by
  induction n generalizing p s with
  | zero => rfl
  | succ n ih =>
    simp only [destroy, pile_reprint, List.length_map]
    obtain ⟨_ | i, s⟩ := Generator.index (p.pile pile).length s
    · rfl
    · simp only [destroyAt?_reprint]
      cases p.destroyAt? pile i with
      | none => rfl
      | some gone => simp only [Option.map_some, ih]

theorem grantCard_reprint (card : Card) :
    (p.reprint g).grantCard (g card) = (p.grantCard card).reprint g := by
  simp [grantCard, reprint, CardCopy.reprint]

theorem grant_reprint (pool : List Card) (n : Nat) :
    (p.reprint g).grant (pool.map g) n s =
      ((p.grant pool n s).1, (p.grant pool n s).2.1.reprint g, (p.grant pool n s).2.2) := by
  induction n generalizing p s with
  | zero => rfl
  | succ n ih =>
    simp only [grant, List.length_map]
    obtain ⟨_ | i, s⟩ := Generator.index pool.length s
    · rfl
    · simp only [List.getElem?_map]
      cases pool[i]? with
      | none => rfl
      | some card =>
        simp only [Option.map_some, grantCard_reprint, ih]
        rfl

/-! ## Costs -/

theorem activeCopy?_reprint (id : Nat) :
    (p.reprint g).activeCopy? id = (p.activeCopy? id).map (CardCopy.reprint g) := by
  simp only [activeCopy?, inPlay_reprint, hand_reprint, find_reprint]
  cases p.inPlay with
  | none => rfl
  | some c => by_cases own : c.id = id <;> simp [own]

variable {g} {f : CardCopy → CardCopy} (same : ∀ c, f (c.reprint g) = (f c).reprint g)
include same

theorem updateFirst_reprint (id : Nat) (cs : List CardCopy) :
    updateFirst id f (cs.map (CardCopy.reprint g)) =
      (updateFirst id f cs).map (CardCopy.reprint g) := by
  induction cs with
  | nil => rfl
  | cons c cs ih => by_cases own : c.id = id <;> simp [updateFirst, own, same, ih]

theorem updateActive_reprint (id : Nat) :
    (p.reprint g).updateActive id f = (p.updateActive id f).reprint g := by
  simp only [updateActive, inPlay_reprint, hand_reprint, updateFirst_reprint same]
  cases played : p.inPlay with
  | none => simp [reprint, played]
  | some c => by_cases own : c.id = id <;> simp [own, same, reprint, played]

end Piles

/-! ## Battles -/

namespace Battle

open Chance

variable (b : Battle) (id : FighterId)

/-- The battle with other cards, in the piles and among those that can be granted. -/
def reprint : Battle :=
  { b with player := { b.player with piles := b.player.piles.reprint g }, pool := b.pool.map g }

@[simp] theorem settings_reprint : (b.reprint g).settings = b.settings := rfl

@[simp] theorem phase_reprint : (b.reprint g).phase = b.phase := rfl

@[simp] theorem enemies_reprint : (b.reprint g).enemies = b.enemies := rfl

@[simp] theorem chance_reprint : (b.reprint g).chance = b.chance := rfl

@[simp] theorem pool_reprint : (b.reprint g).pool = b.pool.map g := rfl

@[simp] theorem fighter_reprint : (b.reprint g).player.fighter = b.player.fighter := rfl

@[simp] theorem piles_reprint : (b.reprint g).player.piles = b.player.piles.reprint g := rfl

@[simp] theorem angel_reprint : (b.reprint g).player.angel = b.player.angel := rfl

@[simp] theorem demon_reprint : (b.reprint g).player.demon = b.player.demon := rfl

@[simp] theorem actionPoints_reprint :
    (b.reprint g).player.actionPoints = b.player.actionPoints := rfl

@[simp] theorem enemy?_reprint : (b.reprint g).enemy? id = b.enemy? id := by cases id <;> rfl

@[simp] theorem fighter?_reprint : (b.reprint g).fighter? id = b.fighter? id := by cases id <;> rfl

@[simp] theorem isAlive_reprint : (b.reprint g).isAlive id = b.isAlive id := by
  simp only [isAlive, fighter?_reprint]

@[simp] theorem living_reprint : (b.reprint g).living = b.living := rfl

@[simp] theorem opponents_reprint : (b.reprint g).opponents id = b.opponents id := by
  cases id <;> rfl

@[simp] theorem isFinished_reprint : (b.reprint g).isFinished = b.isFinished := rfl

variable {g} in
theorem foldl_reprint {α : Type} {act : Battle → α → Battle}
    (h : ∀ b a, act (b.reprint g) a = (act b a).reprint g) (as : List α) (b : Battle) :
    as.foldl act (b.reprint g) = (as.foldl act b).reprint g :=
  List.foldl_hom (reprint g) h

@[simp] theorem emit_reprint (e : Event) : (b.reprint g).emit e = (b.emit e).reprint g := rfl

@[simp] theorem emitAll_reprint (es : List Event) :
    (b.reprint g).emitAll es = (b.emitAll es).reprint g :=
  foldl_reprint (emit_reprint g) es b

@[simp] theorem emitExpired_reprint (kinds : List BuffKind) :
    (b.reprint g).emitExpired id kinds = (b.emitExpired id kinds).reprint g :=
  emitAll_reprint g b _

@[simp] theorem emitGauges_reprint : (b.reprint g).emitGauges = b.emitGauges.reprint g := rfl

@[simp] theorem setFighter_reprint (f : Fighter) :
    (b.reprint g).setFighter id f = (b.setFighter id f).reprint g := by
  cases id <;> rfl

@[simp] theorem updateEnemy_reprint (f : Enemy → Enemy) :
    (b.reprint g).updateEnemy id f = (b.updateEnemy id f).reprint g := by
  cases id <;> rfl

@[simp] theorem setPiles_reprint (p : Piles) (s : Stream) :
    (b.reprint g).setPiles (p.reprint g) s = (b.setPiles p s).reprint g := rfl

@[simp] theorem setPhase_reprint (phase : Phase) :
    (b.reprint g).setPhase phase = (b.setPhase phase).reprint g := rfl

@[simp] theorem shiftGauge_reprint (gauge : Gauge) (delta : Int) :
    (b.reprint g).shiftGauge gauge delta = (b.shiftGauge gauge delta).reprint g := by
  cases gauge <;> rfl

/-! ## Cards on the move -/

@[simp] theorem drawCards_reprint (n : Nat) :
    (b.reprint g).drawCards n = (b.drawCards n).reprint g := by
  simp only [drawCards, piles_reprint, chance_reprint, Piles.draw_reprint, setPiles_reprint,
    emit_reprint]
  split <;> split <;> rfl

@[simp] theorem grantCards_reprint (n : Nat) :
    (b.reprint g).grantCards n = (b.grantCards n).reprint g := by
  simp only [grantCards, piles_reprint, chance_reprint, pool_reprint, Piles.grant_reprint,
    setPiles_reprint, emit_reprint]
  split <;> rfl

@[simp] theorem destroyCards_reprint (pile : Pile) (n : Nat) :
    (b.reprint g).destroyCards pile n = (b.destroyCards pile n).reprint g := by
  simp only [destroyCards, piles_reprint, chance_reprint, Piles.destroy_reprint, setPiles_reprint,
    emit_reprint]
  split <;> rfl

@[simp] theorem discardHand_reprint : (b.reprint g).discardHand = b.discardHand.reprint g := by
  simp only [discardHand, piles_reprint, Piles.discardHand_reprint]
  split <;> rfl

/-! ## Damage and healing -/

@[simp] theorem hurt_reprint (x : Single) :
    (b.reprint g).hurt id x = ((b.hurt id x).1, (b.hurt id x).2.reprint g) := by
  simp only [hurt, fighter?_reprint]
  split
  · rfl
  · split
    · rfl
    · split
      · simp only [setFighter_reprint, emit_reprint, emitExpired_reprint]
      · rfl

@[simp] theorem heal_reprint (x : Single) :
    (b.reprint g).heal id x = ((b.heal id x).1, (b.heal id x).2.reprint g) := by
  simp only [heal, fighter?_reprint]
  split
  · rfl
  · split
    · simp only [setFighter_reprint, emit_reprint]
      split <;> rfl
    · rfl

@[simp] theorem drainLife_reprint (lost : Int) :
    (b.reprint g).drainLife id lost = (b.drainLife id lost).reprint g := by
  simp only [drainLife, fighter?_reprint]
  split
  · rfl
  · split
    · rfl
    · simp only [setFighter_reprint, emitExpired_reprint, heal_reprint]

@[simp] theorem strike_reprint (target : FighterId) (x : Single) :
    (b.reprint g).strike id target x =
      ((b.strike id target x).1, (b.strike id target x).2.reprint g) := by
  simp only [strike, fighter?_reprint, hurt_reprint, drainLife_reprint]
  split <;> split <;> rfl

@[simp] theorem hurtAll_reprint (targets : List FighterId) (x : Single) :
    (b.reprint g).hurtAll targets x = (b.hurtAll targets x).reprint g :=
  foldl_reprint (fun b t => congrArg Prod.snd (hurt_reprint g b t x)) targets b

@[simp] theorem land_reprint (h : DelayedHit) : (b.reprint g).land h = (b.land h).reprint g := by
  simp only [land, emit_reprint, hurtAll_reprint, isAlive_reprint, opponents_reprint,
    living_reprint]
  split
  · split
    · rfl
    · split <;> rfl
  · split <;> rfl

@[simp] theorem fireDelayed_reprint : (b.reprint g).fireDelayed = b.fireDelayed.reprint g :=
  foldl_reprint (land_reprint g) b.delayed.tick.1 { b with delayed := b.delayed.tick.2 }

/-! ## Buffs and costs -/

@[simp] theorem applyBuff_reprint (buff : Buff) :
    applyBuff buff (b.reprint g) id = (applyBuff buff b id).reprint g := by
  simp only [applyBuff, fighter?_reprint]
  split
  · rfl
  · simp only [setFighter_reprint, emit_reprint]

@[simp] theorem cleanse_reprint (n : Nat) :
    (b.reprint g).cleanse id n = (b.cleanse id n).reprint g := by
  simp only [cleanse, fighter?_reprint]
  split
  · rfl
  · simp only [setFighter_reprint, emitExpired_reprint]

@[simp] theorem hurtSelf_reprint (x : Single) :
    (b.reprint g).hurtSelf id x = (b.hurtSelf id x).reprint g := by
  simp only [hurtSelf, fighter?_reprint, hurt_reprint]
  split <;> rfl

@[simp] theorem healPercent_reprint (x : Single) :
    (b.reprint g).healPercent id x = (b.healPercent id x).reprint g := by
  simp only [healPercent, fighter?_reprint, heal_reprint]
  split <;> rfl

@[simp] theorem pay?_reprint (meter : Meter) (cost : Int) :
    (b.reprint g).pay? id meter cost = (b.pay? id meter cost).map (reprint g) := by
  cases id with
  | enemy _ => rfl
  | player =>
    cases meter with
    | angel => by_cases poor : b.player.angel < cost <;> simp [pay?, poor]
    | demon => by_cases poor : b.player.demon < cost <;> simp [pay?, poor]
    | actionPoints =>
      by_cases poor : b.player.actionPoints < cost <;>
        simp [pay?, Player.spendAction?, poor, emitActionPoints, emit, reprint]

@[simp] theorem takeSwift_reprint :
    (b.reprint g).takeSwift = (b.takeSwift.1, b.takeSwift.2.reprint g) := by
  simp only [takeSwift, fighter_reprint]
  split
  · rfl
  · simp only [setFighter_reprint, emitExpired_reprint]

@[simp] theorem startBuffs_reprint :
    (b.reprint g).startBuffs id = ((b.startBuffs id).1, (b.startBuffs id).2.reprint g) := by
  simp only [startBuffs, fighter?_reprint]
  split
  · rfl
  · simp only [setFighter_reprint, emitExpired_reprint]

@[simp] theorem applyTick_reprint (tick : Tick) :
    (b.reprint g).applyTick id tick = (b.applyTick id tick).reprint g := by
  cases tick <;> simp only [applyTick, heal_reprint, hurt_reprint]

@[simp] theorem pruneBuffs_reprint :
    (b.reprint g).pruneBuffs id = (b.pruneBuffs id).reprint g := by
  simp only [pruneBuffs, fighter?_reprint]
  split
  · rfl
  · simp only [setFighter_reprint, emitExpired_reprint]

@[simp] theorem endBuffs_reprint : (b.reprint g).endBuffs id = (b.endBuffs id).reprint g := by
  simp only [endBuffs, fighter?_reprint]
  split
  · rfl
  · rw [foldl_reprint fun b t => applyTick_reprint g b id t, pruneBuffs_reprint]

/-! ## Intents -/

@[simp] theorem candidates_reprint : (b.reprint g).candidates id = b.candidates id := rfl

@[simp] theorem chooseIntent_reprint :
    (b.reprint g).chooseIntent id = ((b.chooseIntent id).1, (b.chooseIntent id).2.reprint g) := by
  cases id with
  | player => rfl
  | enemy i =>
    simp only [chooseIntent, candidates_reprint, chance_reprint, enemy?, enemies_reprint]
    cases b.enemies[i]? <;> rfl

@[simp] theorem refreshIntents_reprint :
    (b.reprint g).refreshIntents = b.refreshIntents.reprint g :=
  foldl_reprint (fun b id => congrArg Prod.snd (chooseIntent_reprint g b id)) b.living b

/-! ## The end of a battle -/

@[simp] theorem decided?_reprint : (b.reprint g).decided? = b.decided? := rfl

@[simp] theorem checkEnd_reprint :
    (b.reprint g).checkEnd = (b.checkEnd.1, b.checkEnd.2.reprint g) := by
  by_cases ended : b.isFinished = true
  · simp only [checkEnd, isFinished_reprint, ended, if_true]
  · simp only [checkEnd, isFinished_reprint, decided?_reprint, ended]
    cases b.decided? <;> rfl

@[simp] theorem enemyRests_reprint :
    (b.reprint g).enemyRests id = (b.enemyRests id).reprint g := by
  simp only [enemyRests, endBuffs_reprint, isAlive_reprint, chooseIntent_reprint]
  split <;> rfl

end Battle
end CardBattle
