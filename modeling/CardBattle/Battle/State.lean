import CardBattle.Chance.Stream
import CardBattle.Combatants
import CardBattle.Delayed

/-!
# CardBattle.Battle.State

The state of a battle and the events it tells. All rules are functions from state to state; an
event is appended to the log as the change that it tells is made, and the log is never read by
a rule.

* `fighter?`, `updateFighter`, `living`, `opponents`: who is there.
* `emit`, `emitExpired`: the log.
* `drawCards`, `grantCards`: moves of copies together with their events.
-/

namespace CardBattle

inductive Phase where
  | battleStart
  | playerTurn
  | enemyTurn
  | battleEnd
deriving DecidableEq

instance : Vocabulary Phase where
  values := [.battleStart, .playerTurn, .enemyTurn, .battleEnd]
  word
    | .battleStart => "BattleStart"
    | .playerTurn => "PlayerTurn"
    | .enemyTurn => "EnemyTurn"
    | .battleEnd => "BattleEnd"

inductive Outcome where
  | victory
  | defeat
deriving DecidableEq

instance : Vocabulary Outcome where
  values := [.victory, .defeat]
  word
    | .victory => "Victory"
    | .defeat => "Defeat"

inductive Event where
  | phaseChanged (phase : Phase)
  | turnStarted (turn : UInt32)
  | cardPlayed (copy : Nat) (card : String) (target : Option FighterId)
  | cardEchoed (copy : Nat) (card : String)
  | cardsDrawn (copies : List Nat)
  | deckReshuffled
  | cardsDiscarded (copies : List Nat)
  | cardsDestroyed (pile : Pile) (copies : List Nat)
  | cardsGranted (copies : List Nat)
  | costReduced (copy : Nat) (cost : Int)
  | damaged (target : FighterId) (report : HitReport)
  | healed (target : FighterId) (amount : Int)
  | buffApplied (target : FighterId) (buff : BuffKind) (stack : Nat)
  | buffExpired (target : FighterId) (buff : BuffKind)
  | gaugesChanged (angel demon : Int)
  | actionPointsChanged (points : Int)
  | delayedQueued (caster : FighterId) (damage : Single) (turns : Int)
  | delayedFired (caster : FighterId) (damage : Single)
  | intentChosen (enemy : FighterId) (skill : Option String)
  | skillUsed (enemy : FighterId) (skill : String)
  | battleEnded (outcome : Outcome)
deriving DecidableEq

structure Battle where
  settings : Settings
  /-- Player turns begun. -/
  turn : UInt32 := 0
  phase : Phase := .battleStart
  outcome : Option Outcome := none
  player : Player
  enemies : List Enemy
  delayed : DelayQueue := []
  chance : Chance.Stream
  /-- The cards that can be granted. -/
  pool : List Card
  events : Array Event := #[]

namespace Battle

def emit (b : Battle) (e : Event) : Battle := { b with events := b.events.push e }

def emitAll (b : Battle) (es : List Event) : Battle := es.foldl emit b

/-- Takes the events told so far. -/
def drain (b : Battle) : Array Event × Battle := (b.events, { b with events := #[] })

def fighter? (b : Battle) : FighterId → Option Fighter
  | .player => some b.player.fighter
  | .enemy i => (b.enemies[i]?).map Enemy.fighter

def enemy? (b : Battle) : FighterId → Option Enemy
  | .player => none
  | .enemy i => b.enemies[i]?

def setFighter (b : Battle) (id : FighterId) (f : Fighter) : Battle :=
  match id with
  | .player => { b with player := { b.player with fighter := f } }
  | .enemy i => { b with enemies := b.enemies.modify i fun e => { e with fighter := f } }

def updateEnemy (b : Battle) (id : FighterId) (f : Enemy → Enemy) : Battle :=
  match id with
  | .player => b
  | .enemy i => { b with enemies := b.enemies.modify i f }

def isAlive (b : Battle) (id : FighterId) : Bool :=
  match b.fighter? id with
  | none => false
  | some f => f.isAlive

/-- The living enemies, in battle order. -/
def living (b : Battle) : List FighterId :=
  (b.enemies.filter fun e => e.fighter.isAlive).map fun e => e.fighter.id

def livingCount (b : Battle) : Nat := b.enemies.countP fun e => e.fighter.isAlive

/-- The living fighters on the other side. -/
def opponents (b : Battle) : FighterId → List FighterId
  | .player => b.living
  | .enemy _ => if b.player.fighter.isAlive then [.player] else []

def isFinished (b : Battle) : Bool := b.phase = .battleEnd

def emitExpired (b : Battle) (target : FighterId) (kinds : List BuffKind) : Battle :=
  b.emitAll (kinds.map fun k => .buffExpired target k)

def emitGauges (b : Battle) : Battle :=
  b.emit (.gaugesChanged b.player.angel b.player.demon)

def emitActionPoints (b : Battle) : Battle :=
  b.emit (.actionPointsChanged b.player.actionPoints)

def setPiles (b : Battle) (piles : Piles) (chance : Chance.Stream) : Battle :=
  { b with player := { b.player with piles }, chance }

/-- Draws copies to the hand. A reshuffle on the way is told before the copies. -/
def drawCards (b : Battle) (n : Nat) : Battle :=
  let (drawn, piles, chance) := b.player.piles.draw n b.chance
  let b := b.setPiles piles chance
  let b := if drawn.reshuffled then b.emit .deckReshuffled else b
  if drawn.ids.isEmpty then b else b.emit (.cardsDrawn drawn.ids)

/-- Grants cards of the pool to the hand. -/
def grantCards (b : Battle) (n : Nat) : Battle :=
  let (ids, piles, chance) := b.player.piles.grant b.pool n b.chance
  let b := b.setPiles piles chance
  if ids.isEmpty then b else b.emit (.cardsGranted ids)

/-- Destroys random copies of a pile. -/
def destroyCards (b : Battle) (pile : Pile) (n : Nat) : Battle :=
  let (ids, piles, chance) := b.player.piles.destroy pile n b.chance
  let b := b.setPiles piles chance
  if ids.isEmpty then b else b.emit (.cardsDestroyed pile ids)

/-- Shifts a gauge without telling it. -/
def shiftGauge (b : Battle) (gauge : Gauge) (delta : Int) : Battle :=
  { b with player := b.player.shift gauge delta }

/-- The resistance of a fighter to an element, in percent: that of its monster, if it has one,
and that of its buffs. -/
def resistance? (b : Battle) (id : FighterId) (element : Element) : Option Int :=
  match b.fighter? id with
  | none => none
  | some f =>
    let base :=
      match b.enemy? id with
      | some e => e.monster.resistances.against element
      | none => 0
    some (Amount.saturate (base + f.buffs.resistance element))

theorem events_emitAll (b : Battle) (es : List Event) :
    (b.emitAll es).events.toList = b.events.toList ++ es := by
  induction es generalizing b with
  | nil => simp [emitAll]
  | cons e es ih =>
    have := ih (b.emit e)
    simp only [emitAll, List.foldl_cons] at this ⊢
    rw [this]
    simp [emit]

end Battle
end CardBattle
