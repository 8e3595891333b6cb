/-!
# CardBattle.Settings

The tunable numbers of a battle and the fixed bounds of the rules.
-/

namespace CardBattle

structure Settings where
  /-- Starting and largest hit points of the player. -/
  playerMaxHp : Int := 100
  /-- Cards drawn when a player turn begins. -/
  handSize : Nat := 5
  /-- Action points at the start of a player turn. -/
  maxActionPoints : Int := 3
  /-- Starting value of both gauges, before it is clamped. -/
  gaugeDefault : Int := 50
  /-- How many echoes may be nested in each other. -/
  maxChainDepth : Nat := 4
  /-- Turns after which automatic play stops; 0 for no limit. A battle itself has none. -/
  turnLimit : Nat := 0
deriving DecidableEq

namespace Settings

instance : Inhabited Settings := ⟨{}⟩

def maxSlots : Nat := 4

def maxSkillEffects : Nat := 3

def maxMonsterSkills : Nat := 3

def maxWeights : Nat := 6

def maxRules : Nat := 4

/-- Room in a list of buffs. There are fewer kinds of buff than this. -/
def maxBuffs : Nat := 16

def gaugeMax : Int := 100

def clampGauge (n : Int) : Int := max 0 (min gaugeMax n)

theorem clampGauge_bounds (n : Int) : 0 ≤ clampGauge n ∧ clampGauge n ≤ gaugeMax := by
  simp only [clampGauge, gaugeMax]
  omega

end Settings
end CardBattle
