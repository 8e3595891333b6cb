import CardBattle.Binary.Basic
import CardBattle.Card

/-!
# CardBattle.Monster

Monsters as the bestiary lists them: their hit points and resistances, the skills they own, and
the weights and rules by which they choose among their skills.
-/

namespace CardBattle

/-- Resistance to each element, in percent. -/
structure Resistances where
  fire : Int := 0
  water : Int := 0
  earth : Int := 0
  wind : Int := 0
  lightning : Int := 0
deriving DecidableEq

/-- Nothing resists the neutral element. -/
def Resistances.against (r : Resistances) : Element → Int
  | .neutral => 0
  | .fire => r.fire
  | .water => r.water
  | .earth => r.earth
  | .wind => r.wind
  | .lightning => r.lightning

inductive SkillType where
  | attack
  | defense
  | buff
  | debuff
  | special
deriving DecidableEq

instance : Inhabited SkillType := ⟨.attack⟩

instance : Vocabulary SkillType where
  values := [.attack, .defense, .buff, .debuff, .special]
  word
    | .attack => "Attack"
    | .defense => "Defense"
    | .buff => "Buff"
    | .debuff => "Debuff"
    | .special => "Special"

/-- An effect of a skill. Unlike the values of cards, those of skills are numbers. -/
structure SkillEffect where
  kind : EffectKind
  value : Single

structure Skill where
  id : String
  name : String
  type : SkillType := .attack
  effects : UpTo Settings.maxSkillEffects SkillEffect := UpTo.empty

/-- A skill that a monster owns, with the requirement that unlocks it. -/
structure SkillRef where
  skillId : String
  requirement : String := ""
deriving DecidableEq

structure Monster where
  id : String
  name : String
  hp : Int
  /-- Percentage by which the damage of its skills is scaled. -/
  attack : Int := 100
  resistances : Resistances := {}
  behaviorId : Option String := none
  skills : UpTo Settings.maxMonsterSkills SkillRef := UpTo.empty

/-- A bonus for one weight while a condition holds; both are texts. -/
structure Rule where
  condition : String
  result : String
deriving DecidableEq

structure Behavior where
  id : String
  weights : UpTo Settings.maxWeights String := UpTo.empty
  rules : UpTo Settings.maxRules Rule := UpTo.empty

end CardBattle
