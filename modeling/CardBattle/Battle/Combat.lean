import CardBattle.Battle.State

/-!
# CardBattle.Battle.Combat

Damage and healing in a battle: the arithmetic is the fighters', here it meets its target and
is told.

* `hurt`: damage to a target, with its events.
* `heal`: healing of a target.
* `strike`: a hit by an attacker, which may drain life.
-/

namespace CardBattle
namespace Battle

/-- Damage to a target. Damage up to zero, an unknown target and a dead one change nothing. -/
def hurt (target : FighterId) (amount : Single) (b : Battle) : HitReport × Battle :=
  if Binary.le amount (.finite 0) then ({}, b)
  else
    match b.fighter? target with
    | none => ({}, b)
    | some f =>
      if f.isAlive then
        let (report, expired, f) := f.takeHit amount
        (report, ((b.setFighter target f).emit (.damaged target report)).emitExpired target expired)
      else ({}, b)

/-- Healing of a target; answers the hit points restored. The dead are not healed. -/
def heal (target : FighterId) (amount : Single) (b : Battle) : Int × Battle :=
  match b.fighter? target with
  | none => (0, b)
  | some f =>
    if f.isAlive then
      let (restored, f) := f.mend amount
      let b := b.setFighter target f
      (restored, if 0 < restored then b.emit (.healed target restored) else b)
    else (0, b)

/-- The first lifesteel of an attacker is used up and heals a percentage of the damage done. -/
def drainLife (attacker : FighterId) (lost : Int) (b : Battle) : Battle :=
  match b.fighter? attacker with
  | none => b
  | some f =>
    match f.buffs.drain with
    | (none, _) => b
    | (some percent, buffs) =>
      let (expired, buffs) := buffs.prune
      let b := (b.setFighter attacker { f with buffs }).emitExpired attacker expired
      (b.heal attacker (Binary.ofInt lost * percent / Ledger.hundred)).2

/-- A hit by an attacker: outgoing buffs, damage, then lifesteel if hit points were lost. -/
def strike (attacker target : FighterId) (base : Single) (b : Battle) : HitReport × Battle :=
  let amount :=
    match b.fighter? attacker with
    | some f => f.strength base
    | none => base.floorAtZero
  let (report, b) := b.hurt target amount
  (report, if 0 < report.lost && attacker != target then b.drainLife attacker report.lost else b)

/-- Puts a delayed hit into the queue. -/
def enqueue (h : DelayedHit) (b : Battle) : Battle :=
  let b := b.emit (.delayedQueued h.caster h.damage h.remaining)
  { b with delayed := b.delayed.push h }

/-- Damage to several targets, one after the other. -/
def hurtAll (targets : List FighterId) (amount : Single) (b : Battle) : Battle :=
  targets.foldl (fun b t => (b.hurt t amount).2) b

/-- A due hit lands. One whose fixed target is gone fizzles. -/
def land (b : Battle) (h : DelayedHit) : Battle :=
  let fired := b.emit (.delayedFired h.caster h.damage)
  match h.mode with
  | .single =>
    match h.target with
    | none => b
    | some t => if b.isAlive t then fired.hurtAll [t] h.damage else b
  | .area =>
    if h.atPlayer then fired.hurtAll (b.opponents h.caster) h.damage
    else fired.hurtAll b.living h.damage

/-- A turn start of the queue: the due hits land in their order. -/
def fireDelayed (b : Battle) : Battle :=
  let (due, waiting) := b.delayed.tick
  due.foldl land { b with delayed := waiting }

end Battle
end CardBattle
