import CardBattle.Fighter
import CardBattle.Monster
import CardBattle.Piles

/-!
# CardBattle.Combatants

The two sides of a battle: the player with gauges, action points and piles, and the enemies
with their skills and intents.
-/

namespace CardBattle

inductive Gauge where
  | angel
  | demon
deriving DecidableEq

structure Player where
  fighter : Fighter
  angel : Int
  demon : Int
  actionPoints : Int := 0
  maxActionPoints : Int
  piles : Piles

namespace Player

/-- A player at the start of a battle, without action points. -/
def fresh (maxHp : Int) (piles : Piles) (settings : Settings) : Player :=
  { fighter := .fresh .player maxHp
    angel := Settings.clampGauge settings.gaugeDefault
    demon := Settings.clampGauge settings.gaugeDefault
    maxActionPoints := max 0 settings.maxActionPoints
    piles }

def gauge (p : Player) : Gauge → Int
  | .angel => p.angel
  | .demon => p.demon

/-- Shifts a gauge, within its bounds. -/
def shift (p : Player) (gauge : Gauge) (delta : Int) : Player :=
  match gauge with
  | .angel => { p with angel := Settings.clampGauge (Amount.saturate (p.angel + delta)) }
  | .demon => { p with demon := Settings.clampGauge (Amount.saturate (p.demon + delta)) }

def gainAction (p : Player) (amount : Int) : Player :=
  { p with actionPoints := max 0 (Amount.saturate (p.actionPoints + amount)) }

/-- Pays a cost in action points, if there are enough. -/
def spendAction? (p : Player) (cost : Int) : Option Player :=
  if p.actionPoints < cost then none
  else some { p with actionPoints := p.actionPoints - max 0 cost }

def resetActionPoints (p : Player) : Player := { p with actionPoints := p.maxActionPoints }

end Player

/-- A skill in the hands of an enemy; an empty requirement is always met. -/
structure OwnedSkill where
  skill : Skill
  requirement : String

structure Enemy where
  fighter : Fighter
  monster : Monster
  behavior : Option Behavior
  skills : List OwnedSkill
  /-- The skill chosen for the next enemy turn. -/
  intent : Option String := none
  /-- Skills used so far. -/
  casts : UInt32 := 0

namespace Enemy

def fresh (id : FighterId) (monster : Monster) (behavior : Option Behavior)
    (skills : List OwnedSkill) : Enemy :=
  { fighter := .fresh id monster.hp, monster, behavior, skills }

def skill? (e : Enemy) (id : String) : Option OwnedSkill :=
  e.skills.find? fun s => s.skill.id == id

def intentSkill? (e : Enemy) : Option OwnedSkill :=
  match e.intent with
  | none => none
  | some id => e.skill? id

end Enemy
end CardBattle
