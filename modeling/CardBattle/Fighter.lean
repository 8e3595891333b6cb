import CardBattle.Buff.Ledger

/-!
# CardBattle.Fighter

What the player and the enemies have in common: hit points, a shield and buffs. The functions
on a fighter are the whole arithmetic of damage and healing; the battle adds who is hit and
what is told about it.

* `takeHit`: a hit, through incoming buffs, rounding and shield to the hit points.
* `mend`: healing, refused by the cursed.
-/

namespace CardBattle

/-- The player, or an enemy by its place in the battle. -/
inductive FighterId where
  | player
  | enemy (place : Nat)
deriving DecidableEq

namespace FighterId

/-- The player has number 0, the enemies are numbered from 1. -/
def number : FighterId → Nat
  | .player => 0
  | .enemy i => i + 1

def ofNumber : Nat → FighterId
  | 0 => .player
  | i + 1 => .enemy i

theorem ofNumber_number (id : FighterId) : ofNumber id.number = id := by cases id <;> rfl

end FighterId

structure Fighter where
  id : FighterId
  hp : Int
  maxHp : Int
  shield : Int := 0
  buffs : Ledger := {}
deriving DecidableEq

/-- What a hit did. -/
structure HitReport where
  absorbed : Int := 0
  lost : Int := 0
  /-- The hit points went from above 0 to 0. -/
  killed : Bool := false
deriving DecidableEq

namespace Fighter

/-- A fighter at full health, which is at least 1. -/
def fresh (id : FighterId) (maxHp : Int) : Fighter :=
  { id, hp := max 1 maxHp, maxHp := max 1 maxHp }

def isAlive (f : Fighter) : Bool := 0 < f.hp

def hpPercent (f : Fighter) : Single :=
  Binary.ofInt f.hp * Ledger.hundred / Binary.ofInt f.maxHp

def setHp (f : Fighter) (n : Int) : Fighter := { f with hp := max 0 (min f.maxHp n) }

def addShield (f : Fighter) (n : Int) : Fighter :=
  { f with shield := Amount.saturate (f.shield + max 0 n) }

/-- Rounds to the nearest amount, a half away from zero. -/
def roundAmount (x : Single) : Int := x.roundWithin Amount.least Amount.greatest

/-- The outgoing damage of a fighter, never below zero. -/
def strength (f : Fighter) (base : Single) : Single := (f.buffs.outgoing base).floorAtZero

/-- A hit on a living fighter. Incoming buffs change it, the shield absorbs the rounded damage
first, fear remembers what the hit points lost, and the inert buffs are pruned; their kinds are
answered. -/
def takeHit (f : Fighter) (amount : Single) : HitReport × List BuffKind × Fighter :=
  let (modified, buffs) := f.buffs.incoming amount
  let damage := max 0 (roundAmount modified)
  let absorbed := min f.shield damage
  let lost := min f.hp (damage - absorbed)
  let buffs := if 0 < lost then buffs.record lost else buffs
  let (expired, buffs) := buffs.prune
  let hp := f.hp - lost
  ({ absorbed, lost, killed := !(0 < hp) }, expired,
    { f with hp, shield := f.shield - absorbed, buffs })

/-- Healing of a living fighter; answers the hit points restored. -/
def mend (f : Fighter) (amount : Single) : Int × Fighter :=
  let wanted := if f.buffs.has .cursed then 0 else max 0 (roundAmount amount)
  let restored := min (f.maxHp - f.hp) wanted
  (restored, { f with hp := f.hp + restored })

@[simp] theorem id_fresh (id : FighterId) (n : Int) : (fresh id n).id = id := rfl

@[simp] theorem id_takeHit (f : Fighter) (x : Single) : (f.takeHit x).2.2.id = f.id := rfl

@[simp] theorem maxHp_takeHit (f : Fighter) (x : Single) : (f.takeHit x).2.2.maxHp = f.maxHp := rfl

@[simp] theorem id_mend (f : Fighter) (x : Single) : (f.mend x).2.id = f.id := rfl

@[simp] theorem maxHp_mend (f : Fighter) (x : Single) : (f.mend x).2.maxHp = f.maxHp := rfl

end Fighter
end CardBattle
