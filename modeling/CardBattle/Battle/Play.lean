import CardBattle.Battle.Turn
import CardBattle.Fault

/-!
# CardBattle.Battle.Play

What a player can do: play a card of the hand, and end the turn. A call that is not allowed is
answered by a fault, and there is no new state.

* `play`: the checks, in their order, and then the whole play.
* `endTurn`: the rest of the player turn, the enemy turn and the beginning of the next turn.
-/

namespace CardBattle

inductive PlayFault where
  | phaseMismatch (actual : Phase)
  | battleFinished
  | cardNotInHand (copy : Nat)
  | insufficientActionPoints (cost available : Int)
  | unknownTarget (target : FighterId)
deriving DecidableEq

instance : Fault PlayFault where
  code
    | .phaseMismatch _ => "PLAY_PHASE_MISMATCH"
    | .battleFinished => "PLAY_BATTLE_FINISHED"
    | .cardNotInHand _ => "PLAY_CARD_NOT_IN_HAND"
    | .insufficientActionPoints _ _ => "PLAY_INSUFFICIENT_ACTION_POINTS"
    | .unknownTarget _ => "PLAY_UNKNOWN_TARGET"
  message
    | .phaseMismatch actual =>
      "cards can only be played during the player turn (current phase: " ++
        Vocabulary.word actual ++ ")"
    | .battleFinished => "the battle has already ended"
    | .cardNotInHand copy => "card#" ++ Numeral.text copy ++ " is not in hand"
    | .insufficientActionPoints cost available =>
      "not enough action points: card costs " ++ Numeral.text cost ++ ", " ++
        Numeral.text available ++ " available"
    | .unknownTarget target => "#" ++ Numeral.text target.number ++ " is not a living enemy"
  severity
    | .phaseMismatch _ | .insufficientActionPoints _ _ => .recoverable
    | .cardNotInHand _ | .unknownTarget _ => .validation
    | .battleFinished => .fatal

inductive TurnFault where
  | phaseMismatch (actual : Phase)
  | battleFinished
deriving DecidableEq

instance : Fault TurnFault where
  code
    | .phaseMismatch _ => "TURN_PHASE_MISMATCH"
    | .battleFinished => "TURN_BATTLE_FINISHED"
  message
    | .phaseMismatch actual =>
      "the turn can only be ended during the player turn (current phase: " ++
        Vocabulary.word actual ++ ")"
    | .battleFinished => "the battle has already ended"
  severity
    | .phaseMismatch _ => .recoverable
    | .battleFinished => .fatal

namespace Battle

/-- A target is a living enemy. -/
def isTarget (b : Battle) (target : FighterId) : Bool :=
  target != .player && b.isAlive target

/-- The end of a play: the copy goes to the discard pile, and the battle may end. -/
def finishPlay (b : Battle) : Battle :=
  match b.player.piles.finishPlay with
  | (none, _) => b.checkEnd.2
  | (some id, piles) =>
    ({ b with player := { b.player with piles } }.emit (.cardsDiscarded [id])).checkEnd.2

/-- A play that has passed its checks. The copy goes into play and is paid for; then it
resolves. -/
def playCopy (b : Battle) (place : Nat) (c : CardCopy) (piles : Piles) (cost : Int)
    (target : Option FighterId) : Battle :=
  let player := { b.player with piles }
  let player := (player.spendAction? cost).getD player
  let b := { b with player }.emitActionPoints.emit (.cardPlayed c.id c.card.id target)
  (b.resolveCard { copy := c.id, card := c.card, place } target).2.finishPlay

/-- Plays a copy of the hand, with a target for the effects that need one. -/
def play (b : Battle) (copy : Nat) (target : Option FighterId) : Except PlayFault Battle :=
  match b.phase with
  | .battleEnd => .error .battleFinished
  | .battleStart => .error (.phaseMismatch .battleStart)
  | .enemyTurn => .error (.phaseMismatch .enemyTurn)
  | .playerTurn =>
    match b.player.piles.beginPlay? copy with
    | none => .error (.cardNotInHand copy)
    | some (place, c, piles) =>
      if b.player.actionPoints < c.cost then
        .error (.insufficientActionPoints c.cost b.player.actionPoints)
      else
        match target with
        | none => .ok (b.playCopy place c piles c.cost none)
        | some t =>
          if b.isTarget t then .ok (b.playCopy place c piles c.cost (some t))
          else .error (.unknownTarget t)

/-- Ends the player turn; the next player turn has begun afterwards, or the battle has ended. -/
def endTurn (b : Battle) : Except TurnFault Battle :=
  match b.phase with
  | .battleEnd => .error .battleFinished
  | .battleStart => .error (.phaseMismatch .battleStart)
  | .enemyTurn => .error (.phaseMismatch .enemyTurn)
  | .playerTurn => .ok b.endPlayerTurn

/-- The skill that an enemy will use. -/
def intent? (b : Battle) (id : FighterId) : Option Skill :=
  match b.enemy? id with
  | none => none
  | some e => e.intentSkill?.map OwnedSkill.skill

end Battle
end CardBattle
