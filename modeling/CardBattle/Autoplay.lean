import CardBattle.Battle.Play

/-!
# CardBattle.Autoplay

A battle that plays itself: the first card of the hand that can be paid for is played on the
first living enemy, again and again, until nothing can be paid for; then the turn ends.

* `playTurn`: the plays of one turn, at most 64.
* `run`: turn by turn, until the battle is over or the turn limit is passed.
-/

namespace CardBattle
namespace Autoplay

structure Report where
  /-- Unset if the turn limit stopped the battle. -/
  outcome : Option Outcome
  turns : UInt32
  cardsPlayed : UInt32
  playerHp : Int
deriving DecidableEq

/-- A move that the battle did not accept. -/
inductive Rejection where
  | play (fault : PlayFault)
  | turn (fault : TurnFault)
deriving DecidableEq

def maxPlays : Nat := 64

def firstAffordable? (b : Battle) : Option Nat :=
  (b.player.piles.hand.find? fun c => c.cost ≤ b.player.actionPoints).map CardCopy.id

/-- Plays up to `n` cards; answers how many. -/
def playCards : Nat → Battle → Except Rejection (Nat × Battle)
  | 0, b => .ok (0, b)
  | n + 1, b =>
    if b.isFinished then .ok (0, b)
    else
      match firstAffordable? b with
      | none => .ok (0, b)
      | some copy =>
        match b.play copy b.living.head? with
        | .error e => .error (.play e)
        | .ok b => (playCards n b).map fun (count, b) => (count + 1, b)

def playTurn (b : Battle) : Except Rejection (Nat × Battle) := playCards maxPlays b

/-- Ends the turn unless the battle is over. -/
def finishTurn (b : Battle) : Except Rejection Battle :=
  if b.isFinished then .ok b
  else
    match b.endTurn with
    | .error e => .error (.turn e)
    | .ok b => .ok b

/-- Plays turns while the battle goes on and the limit is not passed, at most `n` of them, and
counts the cards played. -/
def playTurns (limit : UInt32) : Nat → UInt32 → Battle → Except Rejection (UInt32 × Battle)
  | 0, count, b => .ok (count, b)
  | n + 1, count, b =>
    if b.isFinished || (0 < limit && limit < b.turn) then .ok (count, b)
    else
      match playTurn b with
      | .error e => .error e
      | .ok (played, b) =>
        match finishTurn b with
        | .error e => .error e
        | .ok b => playTurns limit n (count + UInt32.ofNat played) b.drain.2

/-- Every turn makes the turn number larger, so that a limit bounds the number of turns. Without a
limit, or with the greatest one, nothing does, and as many turns are played as there are turn
numbers. -/
def bound (limit : UInt32) : Nat := if limit = 0 then Count.greatest else limit.toNat + 1

/-- Plays a battle to its end or beyond `limit` turns; 0 is no limit. No events are left. -/
def run (limit : UInt32) (b : Battle) : Except Rejection (Report × Battle) :=
  match playTurns limit (bound limit) 0 b with
  | .error e => .error e
  | .ok (cardsPlayed, b) =>
    let b := b.drain.2
    .ok
      ({ outcome := b.outcome, turns := b.turn, cardsPlayed, playerHp := b.player.fighter.hp }, b)

end Autoplay
end CardBattle
