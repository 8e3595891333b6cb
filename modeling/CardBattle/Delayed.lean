import CardBattle.Fighter

/-!
# CardBattle.Delayed

Damage that lands later. A delayed hit locks its amount in when it is cast and waits a number
of turn starts; the queue keeps the order of casting.

* `tick`: one turn start; the hits that are due leave the queue.
-/

namespace CardBattle

inductive DelayMode where
  /-- One fixed target. -/
  | single
  /-- Everyone of one side alive when it lands. -/
  | area
deriving DecidableEq

structure DelayedHit where
  mode : DelayMode
  caster : FighterId
  damage : Single
  /-- Turn starts left; at 0 or below the hit is due. -/
  remaining : Int
  target : Option FighterId
  element : Element := .neutral
  atPlayer : Bool
deriving DecidableEq

namespace DelayedHit

def single (caster target : FighterId) (damage : Single) (turns : Int) : DelayedHit :=
  { mode := .single, caster, damage, remaining := turns, target := some target
    atPlayer := target = .player }

def area (caster : FighterId) (damage : Single) (turns : Int) : DelayedHit :=
  { mode := .area, caster, damage, remaining := turns, target := none
    atPlayer := caster != .player }

def wait (h : DelayedHit) : DelayedHit :=
  { h with remaining := Amount.saturate (h.remaining - 1) }

def isDue (h : DelayedHit) : Bool := h.remaining ≤ 0

end DelayedHit

abbrev DelayQueue := List DelayedHit

namespace DelayQueue

def push (q : DelayQueue) (h : DelayedHit) : DelayQueue := q ++ [h]

/-- The hits that are due, in their order, and the queue of the others. -/
def tick (q : DelayQueue) : List DelayedHit × DelayQueue :=
  (q.map DelayedHit.wait).partition DelayedHit.isDue

end DelayQueue
end CardBattle
