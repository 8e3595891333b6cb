import CardBattle.Battle.Intent

/-!
# CardBattle.Battle.Turn

The course of a battle: player turn and enemy turn in alternation, until one side has fallen.

* `checkEnd`: ends the battle if a side has been wiped out.
* `beginPlayerTurn`, `endPlayerTurn`: the two ends of a player turn; the second one runs the
  whole enemy turn and begins the next player turn.
-/

namespace CardBattle
namespace Battle

def setPhase (phase : Phase) (b : Battle) : Battle :=
  { b with phase }.emit (.phaseChanged phase)

/-- The outcome that the hit points decide. Defeat comes before victory. -/
def decided? (b : Battle) : Option Outcome :=
  if !b.player.fighter.isAlive then some .defeat
  else if b.livingCount = 0 then some .victory
  else none

/-- Ends the battle if it is decided; answers whether it has ended. -/
def checkEnd (b : Battle) : Bool × Battle :=
  if b.isFinished then (true, b)
  else
    match b.decided? with
    | none => (false, b)
    | some outcome =>
      (true, ({ b with outcome := some outcome }.setPhase .battleEnd).emit (.battleEnded outcome))

def resetActionPoints (b : Battle) : Battle :=
  { b with player := b.player.resetActionPoints }.emitActionPoints

/-- The turn start of a fighter's buffs; answers the cards granted. -/
def startBuffs (id : FighterId) (b : Battle) : Nat × Battle :=
  match b.fighter? id with
  | none => (0, b)
  | some f =>
    let (gifts, expired, buffs) := f.buffs.turnStart
    (gifts, (b.setFighter id { f with buffs }).emitExpired id expired)

def applyTick (id : FighterId) (b : Battle) : Tick → Battle
  | .heal _ amount => (b.heal id amount).2
  | .damage _ amount => (b.hurt id amount).2

def pruneBuffs (id : FighterId) (b : Battle) : Battle :=
  match b.fighter? id with
  | none => b
  | some f =>
    let (expired, buffs) := f.buffs.prune
    (b.setFighter id { f with buffs }).emitExpired id expired

/-- The turn end of a fighter's buffs. What they do is settled before the first of it is done. -/
def endBuffs (id : FighterId) (b : Battle) : Battle :=
  match b.fighter? id with
  | none => b
  | some f => ((f.buffs.turnEnd f.maxHp).foldl (applyTick id) b).pruneBuffs id

def beginPlayerTurn (b : Battle) : Battle :=
  let b := { b with turn := b.turn + 1 }.setPhase .playerTurn
  let b := (b.emit (.turnStarted b.turn)).resetActionPoints
  let (gifts, b) := b.startBuffs .player
  let b := if gifts = 0 then b else b.grantCards gifts
  ((b.drawCards b.settings.handSize).fireDelayed.checkEnd).2

/-- One enemy acts, if it lives through its turn start. -/
def enemyActs (id : FighterId) (b : Battle) : Battle :=
  if b.isAlive id then
    let (_, b) := b.startBuffs id
    if b.isAlive id then (b.performIntent id).2 else b
  else b

/-- The enemies act in order, until the player falls. -/
def enemiesAct : List FighterId → Battle → Battle
  | [], b => b
  | id :: ids, b =>
    let b := b.enemyActs id
    if b.player.fighter.isAlive then enemiesAct ids b else b

/-- One enemy ends its turn and, if it still lives, chooses what to do next. -/
def enemyRests (b : Battle) (id : FighterId) : Battle :=
  let b := b.endBuffs id
  if b.isAlive id then (b.chooseIntent id).2 else b

def runEnemyTurn (b : Battle) : Battle :=
  let b := b.enemiesAct b.living
  if b.player.fighter.isAlive then b.living.foldl enemyRests b else b

def discardHand (b : Battle) : Battle :=
  let (ids, piles) := b.player.piles.discardHand
  let b := { b with player := { b.player with piles } }
  if ids.isEmpty then b else b.emit (.cardsDiscarded ids)

def endPlayerTurn (b : Battle) : Battle :=
  match (b.endBuffs .player).discardHand.checkEnd with
  | (true, b) => b
  | (false, b) =>
    match (b.setPhase .enemyTurn).runEnemyTurn.checkEnd with
    | (true, b) => b
    | (false, b) => b.beginPlayerTurn

end Battle
end CardBattle
