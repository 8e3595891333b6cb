import CardBattle.Battle.Combat
import CardBattle.Binary.Shortest
import CardBattle.Effect
import CardBattle.Requirement

/-!
# CardBattle.Battle.Resolution

How cards and skills resolve. The slots of a card run in order; a slot of the empty kind, one
whose requirement is not met and one whose value cannot be read are passed over. The first slot
that repeats ends the plain pass: the slots behind it run once for each payment.

A card may echo a card in the hand: the slots of that card run within the same resolution, one
link further down the chain. The chain has a bound, so every resolution ends, and the definition
is structural on the links that are left.

* `Frame`: who resolves what, against whom. It does not change while the slots run.
* `Progress`: the battle, and whether the resolution has killed so far.
* `runSlot`, `runSlots`, `runCard`: the slots of one frame, for a given way of echoing.
* `echo`: a card of the hand within a resolution.
* `Battle.resolveCard`, `Battle.resolveSkill`: whole resolutions.
-/

namespace CardBattle

/-- The copy that resolves, and where its neighbours are counted from. -/
structure Source where
  copy : Nat
  anchor : Anchor
deriving DecidableEq

structure Frame where
  caster : FighterId
  /-- The target chosen by a player. Enemies always turn on the player. -/
  target : Option FighterId
  slots : List Slot
  /-- The copy that resolves; a skill has none. -/
  source : Option Source := none
  element : Element := .neutral

structure Progress where
  battle : Battle
  killed : Bool

namespace Frame

/-- The target of a single-target effect, if it is alive. -/
def singleTarget? (frame : Frame) (b : Battle) : Option FighterId :=
  let target :=
    match frame.caster with
    | .player => frame.target
    | .enemy _ => some .player
  match target with
  | none => none
  | some t => if b.isAlive t then some t else none

def repeats (s : Slot) : Bool := s.kind = .spendRepeat

/-- The slots before the first that repeats. -/
def plainSlots (frame : Frame) : List Slot := frame.slots.takeWhile fun s => !repeats s

/-- The first slot that repeats, with the slots behind it. -/
def repeatSlot? (frame : Frame) : Option (Slot × List Slot) :=
  match frame.slots.dropWhile fun s => !repeats s with
  | [] => none
  | s :: rest => some (s, rest)

end Frame

namespace Battle

/-- Pays a cost from a meter and tells it. Only the player has meters. -/
def pay? (caster : FighterId) (meter : Meter) (cost : Int) (b : Battle) : Option Battle :=
  match caster with
  | .enemy _ => none
  | .player =>
    match meter with
    | .angel =>
      if b.player.angel < cost then none else some (b.shiftGauge .angel (-cost)).emitGauges
    | .demon =>
      if b.player.demon < cost then none else some (b.shiftGauge .demon (-cost)).emitGauges
    | .actionPoints =>
      match b.player.spendAction? cost with
      | none => none
      | some player => some { b with player }.emitActionPoints

/-- Puts a buff on a fighter and tells its stacks. -/
def applyBuff (buff : Buff) (b : Battle) (target : FighterId) : Battle :=
  match b.fighter? target with
  | none => b
  | some f =>
    let (_, buffs) := f.buffs.add buff
    let stack :=
      match buffs.entry? buff.kind with
      | some e => e.stack
      | none => buff.stack
    (b.setFighter target { f with buffs }).emit (.buffApplied target buff.kind stack)

def cleanse (target : FighterId) (count : Nat) (b : Battle) : Battle :=
  match b.fighter? target with
  | none => b
  | some f =>
    let (gone, buffs) := f.buffs.cleanse count
    (b.setFighter target { f with buffs }).emitExpired target gone

/-- Lowers the cost of a copy in play or in the hand, and tells it. -/
def reduceCost (copy : Nat) (amount : Int) (b : Battle) : Battle :=
  match b.player.piles.reduceCost? copy amount with
  | none => b
  | some (cost, piles) =>
    { b with player := { b.player with piles } }.emit (.costReduced copy cost)

/-- Damage that fighters do to themselves. It passes their outgoing buffs and drains no life. -/
def hurtSelf (caster : FighterId) (amount : Single) (b : Battle) : Battle :=
  match b.fighter? caster with
  | none => b
  | some f => (b.hurt caster (f.strength amount)).2

/-- Heals a percentage of the largest hit points. -/
def healPercent (caster : FighterId) (percent : Single) (b : Battle) : Battle :=
  match b.fighter? caster with
  | none => b
  | some f => (b.heal caster (Binary.ofInt f.maxHp * percent / Ledger.hundred)).2

end Battle

namespace Progress

def map (p : Progress) (f : Battle → Battle) : Progress := { p with battle := f p.battle }

/-- A strike; a kill is remembered. -/
def strike (caster : FighterId) (amount : Single) (p : Progress) (target : FighterId) :
    Progress :=
  let (report, b) := p.battle.strike caster target amount
  { battle := b, killed := p.killed || report.killed }

end Progress

namespace Frame

open Battle

def buffTargets (frame : Frame) (scope : BuffScope) (b : Battle) : List FighterId :=
  match scope with
  | .caster => [frame.caster]
  | .target => (frame.singleTarget? b).toList
  | .opponents => b.opponents frame.caster

/-- The delayed hit of a frame, or `none` if it needs a target and has none. -/
def delayedHit? (frame : Frame) (mode : DelayMode) (damage : Single) (turns : Int)
    (b : Battle) : Option DelayedHit :=
  match mode with
  | .area => some { DelayedHit.area frame.caster damage turns with element := frame.element }
  | .single =>
    match frame.singleTarget? b with
    | none => none
    | some t =>
      some { DelayedHit.single frame.caster t damage turns with element := frame.element }

/-- A way to echo: the copy at a place of the hand resolves on behalf of a frame. -/
abbrev Echo := Frame → Nat → Progress → Progress

/-- Echoes the neighbour of the copy that resolves, if it has one there. -/
def castMore (echo : Echo) (frame : Frame) (side : Side) (distance : Nat) (p : Progress) :
    Progress :=
  match frame.source with
  | none => p
  | some source =>
    match p.battle.player.piles.neighbor? source.anchor side distance with
    | none => p
    | some (place, _) => echo frame place p

/-- Executes one effect. -/
def execute (echo : Echo) (frame : Frame) (p : Progress) : Effect → Progress
  | .damageTarget amount =>
    match frame.singleTarget? p.battle with
    | none => p
    | some t => p.strike frame.caster amount t
  | .damageOpponents amount =>
    (p.battle.opponents frame.caster).foldl (Progress.strike frame.caster amount) p
  | .damageSelf amount => p.map (hurtSelf frame.caster amount)
  | .healSelf amount => p.map fun b => (b.heal frame.caster amount).2
  | .healSelfPercent percent => p.map (healPercent frame.caster percent)
  | .shiftGauge gauge delta => p.map fun b => (b.shiftGauge gauge delta).emitGauges
  | .gainAction amount =>
    match frame.caster with
    | .enemy _ => p
    | .player =>
      p.map fun b => { b with player := b.player.gainAction amount }.emitActionPoints
  | .reduceCost amount =>
    match frame.source with
    | none => p
    | some source => p.map (Battle.reduceCost source.copy amount)
  | .drawCards count => p.map fun b => b.drawCards count
  | .burn pile count => p.map fun b => b.destroyCards pile count
  | .cleanseSelf count => p.map (cleanse frame.caster count)
  | .applyBuff scope spec =>
    match spec.toBuff with
    | .error _ => p
    | .ok buff => p.map fun b => (frame.buffTargets scope b).foldl (applyBuff buff) b
  | .castMore side distance => frame.castMore echo side distance p
  | .delay mode damage turns =>
    match frame.delayedHit? mode damage turns p.battle with
    | none => p
    | some hit => p.map (enqueue hit)
  | .spendRepeat _ _ _ => p

/-- Whether the requirement of a slot is met at this point of the resolution. -/
def admits (frame : Frame) (p : Progress) (s : Slot) : Bool :=
  Requirement.met s.requirement (Subjects.of p.battle frame.caster p.killed)

def runSlot (echo : Echo) (frame : Frame) (p : Progress) (s : Slot) : Progress :=
  if s.kind = .none then p
  else if frame.admits p s then
    match Effect.read s.kind s.value with
    | .ok (some effect) => frame.execute echo p effect
    | .ok none => p
    | .error _ => p
  else p

def runSlots (echo : Echo) (frame : Frame) (slots : List Slot) (p : Progress) : Progress :=
  slots.foldl (frame.runSlot echo) p

/-- Pays and runs the slots, at most `n` times, until a payment fails. -/
def runRepeats (echo : Echo) (frame : Frame) (slots : List Slot) (meter : Meter) (cost : Int) :
    Nat → Progress → Progress
  | 0, p => p
  | n + 1, p =>
    match p.battle.pay? frame.caster meter cost with
    | none => p
    | some b =>
      runRepeats echo frame slots meter cost n (frame.runSlots echo slots { p with battle := b })

/-- How often a budget covers a cost. -/
def repeatBound (cost budget : Int) : Nat := if cost ≤ 0 then 0 else (budget / cost).toNat

/-- The slot that repeats, and the slots behind it. -/
def runRepeatSlot (echo : Echo) (frame : Frame) (s : Slot) (rest : List Slot) (p : Progress) :
    Progress :=
  if frame.admits p s then
    match Effect.read s.kind s.value with
    | .ok (some (.spendRepeat meter cost budget)) =>
      frame.runRepeats echo rest meter cost (repeatBound cost budget) p
    | _ => p
  else p

def runCard (echo : Echo) (frame : Frame) (p : Progress) : Progress :=
  let p := frame.runSlots echo frame.plainSlots p
  match frame.repeatSlot? with
  | none => p
  | some (s, rest) => frame.runRepeatSlot echo s rest p

/-- The frame in which a held copy is echoed on behalf of another. -/
def ofEcho (frame : Frame) (place : Nat) (c : CardCopy) : Frame :=
  { caster := frame.caster
    target := frame.target
    slots := c.card.slots.items
    source := some { copy := c.id, anchor := .held place }
    element := c.card.element }

/-- Echoes with so many links of the chain left. Only the slots run: nothing is paid, and no
gauge shift of the card follows. -/
def echo : Nat → Echo
  | 0, _, _, p => p
  | links + 1, frame, place, p =>
    match p.battle.player.piles.hand[place]? with
    | none => p
    | some c =>
      (frame.ofEcho place c).runCard (echo links)
        (p.map fun b => b.emit (.cardEchoed c.id c.card.id))

end Frame

/-- A copy that has left the hand and resolves. -/
structure PlayedCopy where
  copy : Nat
  card : Card
  /-- Its place in the hand before it was played. -/
  place : Nat

namespace PlayedCopy

def source (c : PlayedCopy) : Source := { copy := c.copy, anchor := .played c.place }

def frame (c : PlayedCopy) (target : Option FighterId) : Frame :=
  { caster := .player, target, slots := c.card.slots.items, source := some c.source
    element := c.card.element }

end PlayedCopy

namespace Battle

/-- Uses up the player's swift, and tells that it is gone. -/
def takeSwift (b : Battle) : Option SwiftReach × Battle :=
  match b.player.fighter.buffs.takeSwift with
  | (none, _) => (none, b)
  | (some reach, buffs) =>
    let (expired, buffs) := buffs.prune
    let f := { b.player.fighter with buffs }
    (some reach, (b.setFighter .player f).emitExpired .player expired)

/-- The gauge shifts of a played card. -/
def applyShifts (card : Card) (b : Battle) : Battle :=
  if card.angelShift = 0 ∧ card.demonShift = 0 then b
  else ((b.shiftGauge .angel card.angelShift).shiftGauge .demon card.demonShift).emitGauges

/-- The copies that swift reaches from an anchor, left before right. -/
def swiftCopies (anchor : Anchor) (reach : SwiftReach) (b : Battle) : List Nat :=
  [(Side.left, reach.left), (Side.right, reach.right)].filterMap fun (side, distance) =>
    (b.player.piles.neighbor? anchor side distance).map fun found => found.2.id

/-- Echoes a copy by its number, if it still is in the hand. -/
def echoCopy (frame : Frame) (p : Progress) (id : Nat) : Progress :=
  match p.battle.player.piles.handPlace? id with
  | none => p
  | some place => Frame.echo p.battle.settings.maxChainDepth frame place p

/-- Resolves a played copy: swift is used up first, then the slots run, the gauges shift, and at
last the copies that swift reaches are echoed. They are chosen before the first of them runs. -/
def resolveCard (c : PlayedCopy) (target : Option FighterId) (b : Battle) : Bool × Battle :=
  let (reach, b) := b.takeSwift
  let frame := c.frame target
  let p := frame.runCard (Frame.echo b.settings.maxChainDepth) { battle := b, killed := false }
  let p := p.map (applyShifts c.card)
  let copies :=
    match reach with
    | none => []
    | some reach => p.battle.swiftCopies c.source.anchor reach
  let p := copies.foldl (echoCopy frame) p
  (p.killed, p.battle)

end Battle

namespace Skill

/-- The text of a skill's value: damage is scaled by the attack and rounded, an integral value
is written without a point, any other in its shortest form. -/
def valueText (attack : Int) (e : SkillEffect) : List Char :=
  if e.kind.isFlatDamage then
    Numeral.signedDecimal
      (Fighter.roundAmount (e.value * Binary.ofInt attack / Ledger.hundred))
  else if e.value.isIntegral then
    Numeral.signedDecimal (e.value.roundWithin (-9223372036854775808) 9223372036854775807)
  else e.value.toText

/-- The slots as which a skill runs. -/
def slots (s : Skill) (attack : Int) : List Slot :=
  s.effects.items.map fun e =>
    { kind := e.kind, value := String.ofList (valueText attack e), requirement := "" }

end Skill

namespace Battle

/-- Resolves a skill of an enemy against the player. -/
def resolveSkill (enemy : FighterId) (skill : Skill) (attack : Int) (b : Battle) :
    Bool × Battle :=
  let frame : Frame :=
    { caster := enemy, target := some .player, slots := skill.slots attack }
  let p := frame.runCard (Frame.echo b.settings.maxChainDepth) { battle := b, killed := false }
  (p.killed, p.battle)

end Battle
end CardBattle
