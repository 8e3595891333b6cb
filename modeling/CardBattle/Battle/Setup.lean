import CardBattle.Battle.Turn
import CardBattle.Catalog
import CardBattle.Fault

/-!
# CardBattle.Battle.Setup

The beginning of a battle, from a catalog, a deck and the enemies to face.

* `build`: the state before the first turn; the first fault in the order deck, enemies, cards,
  monsters is answered.
* `start`: the enemies choose and the first player turn begins.
-/

namespace CardBattle

/-- An enemy to face, possibly with other hit points than its monster has. -/
structure Foe where
  monsterId : String
  hp : Option Int := none
deriving DecidableEq

inductive SetupFault where
  | unknownCard (id : String)
  | unknownEnemy (id : String)
  | noEnemies
  | emptyDeck
deriving DecidableEq

instance : Fault SetupFault where
  code
    | .unknownCard _ => "SETUP_UNKNOWN_CARD"
    | .unknownEnemy _ => "SETUP_UNKNOWN_ENEMY"
    | .noEnemies => "SETUP_NO_ENEMIES"
    | .emptyDeck => "SETUP_EMPTY_DECK"
  message
    | .unknownCard id => "deck references unknown card " ++ quoted id
    | .unknownEnemy id => "unknown enemy " ++ quoted id
    | .noEnemies => "a battle needs at least one enemy"
    | .emptyDeck => "the player deck is empty"
  severity _ := .validation

namespace Catalog

def cardsOf (c : Catalog) : List String → Except SetupFault (List Card)
  | [] => .ok []
  | id :: ids =>
    match c.cards.find? id with
    | none => .error (.unknownCard id)
    | some card => (c.cardsOf ids).map (card :: ·)

/-- The skills of a monster that are in the catalog. -/
def ownSkills (c : Catalog) (m : Monster) : List OwnedSkill :=
  m.skills.items.filterMap fun r =>
    (c.skills.find? r.skillId).map fun skill => { skill, requirement := r.requirement }

/-- Adds the skill of a weight, without a requirement, unless it is there already. -/
def addSkill (c : Catalog) (skills : List OwnedSkill) (weight : String) : List OwnedSkill :=
  match WeightSlot.read weight.toList with
  | .error _ => skills
  | .ok w =>
    if skills.any fun s => s.skill.id == w.skillId then skills
    else
      match c.skills.find? w.skillId with
      | none => skills
      | some skill => skills ++ [{ skill, requirement := "" }]

/-- The skills of an enemy: those of its monster, then those that only its behavior names. -/
def skillsOf (c : Catalog) (m : Monster) (behavior : Option Behavior) : List OwnedSkill :=
  match behavior with
  | none => c.ownSkills m
  | some behavior => behavior.weights.items.foldl c.addSkill (c.ownSkills m)

def behaviorOf (c : Catalog) (m : Monster) : Option Behavior :=
  m.behaviorId.bind c.behaviors.find?

def enemyOf (c : Catalog) (place : Nat) (foe : Foe) : Except SetupFault Enemy :=
  match c.monsters.find? foe.monsterId with
  | none => .error (.unknownEnemy foe.monsterId)
  | some m =>
    let m := { m with hp := foe.hp.getD m.hp }
    let behavior := c.behaviorOf m
    .ok (.fresh (.enemy place) m behavior (c.skillsOf m behavior))

def enemiesOf (c : Catalog) : Nat → List Foe → Except SetupFault (List Enemy)
  | _, [] => .ok []
  | place, foe :: foes =>
    match c.enemyOf place foe with
    | .error e => .error e
    | .ok enemy => (c.enemiesOf (place + 1) foes).map (enemy :: ·)

end Catalog

namespace Battle

/-- The state before the first turn, with a shuffled deck. -/
def build (c : Catalog) (settings : Settings) (seed : UInt64) (deck : List String)
    (foes : List Foe) : Except SetupFault Battle :=
  if deck.isEmpty then .error .emptyDeck
  else if foes.isEmpty then .error .noEnemies
  else
    match c.cardsOf deck with
    | .error e => .error e
    | .ok cards =>
      match c.enemiesOf 0 foes with
      | .error e => .error e
      | .ok enemies =>
        let (piles, chance) := (Piles.ofCards cards).shuffleDrawPile (.ofSeed seed)
        .ok
          { settings, player := .fresh settings.playerMaxHp piles settings, enemies, chance
            pool := c.pool }

/-- The first events and the first player turn of a battle that has been built. -/
def begin (b : Battle) : Battle :=
  (b.emit (.phaseChanged .battleStart)).refreshIntents.beginPlayerTurn

def start (c : Catalog) (settings : Settings) (seed : UInt64) (deck : List String)
    (foes : List Foe) : Except SetupFault Battle :=
  (build c settings seed deck foes).map begin

end Battle
end CardBattle
