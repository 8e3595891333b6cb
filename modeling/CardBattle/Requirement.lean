import CardBattle.Battle.State
import CardBattle.Binary.Decimal
import CardBattle.Fault

/-!
# CardBattle.Requirement

Requirements: `subject comparison number`, as in `hp >= 30`. A slot or a skill runs only if its
requirement is met. A text that is no requirement is met always, so a mistake in a row never
blocks it.

* `Requirement.read`: the grammar.
* `Requirement.met`: whether a text lets its slot run, given what the subjects are worth.
-/

namespace CardBattle

/-- What a requirement can ask about. -/
inductive Subject where
  | angel
  | demon
  | hp
  | shield
  | actionPoints
  | killOccurred
deriving DecidableEq

instance : Vocabulary Subject where
  values := [.angel, .demon, .hp, .shield, .actionPoints, .killOccurred]
  word
    | .angel => "ametervalue"
    | .demon => "dmetervalue"
    | .hp => "hp"
    | .shield => "shield"
    | .actionPoints => "actionpoint"
    | .killOccurred => "killoccurred"

inductive Comparison where
  | ge
  | le
  | gt
  | lt
  | eq
  | ne
deriving DecidableEq

namespace Comparison

def holds (c : Comparison) (a b : Double) : Bool :=
  match c with
  | .ge => Binary.le b a
  | .le => Binary.le a b
  | .gt => Binary.lt b a
  | .lt => Binary.lt a b
  | .eq => Binary.same a b
  | .ne => !Binary.same a b

/-- The comparison at the front of a text, and what follows. The longer token wins. -/
def read? : List Char → Option (Comparison × List Char)
  | '>' :: '=' :: cs => some (.ge, cs)
  | '<' :: '=' :: cs => some (.le, cs)
  | '=' :: '=' :: cs => some (.eq, cs)
  | '!' :: '=' :: cs => some (.ne, cs)
  | '>' :: cs => some (.gt, cs)
  | '<' :: cs => some (.lt, cs)
  | _ => none

def isOperator (c : Char) : Bool := c = '<' || c = '>' || c = '=' || c = '!'

end Comparison

/-- What the subjects are worth for one caster at one moment. -/
structure Subjects where
  angel : Int := 0
  demon : Int := 0
  hp : Int := 0
  shield : Int := 0
  actionPoints : Int := 0
  killOccurred : Bool := false

namespace Subjects

def value (s : Subjects) : Subject → Int
  | .angel => s.angel
  | .demon => s.demon
  | .hp => s.hp
  | .shield => s.shield
  | .actionPoints => s.actionPoints
  | .killOccurred => if s.killOccurred then 1 else 0

/-- Gauges and action points are the player's; for an enemy they are worth 0. -/
def of (b : Battle) (caster : FighterId) (killOccurred : Bool) : Subjects :=
  let hp := ((b.fighter? caster).map Fighter.hp).getD 0
  let shield := ((b.fighter? caster).map Fighter.shield).getD 0
  match caster with
  | .player =>
    { angel := b.player.angel, demon := b.player.demon, hp, shield
      actionPoints := b.player.actionPoints, killOccurred }
  | .enemy _ => { hp, shield, killOccurred }

end Subjects

inductive RequirementFault where
  | missingOperator (text : String)
  | unknownIdentifier (name : String)
  | invalidNumber (text : String)
deriving DecidableEq

instance : Fault RequirementFault where
  code
    | .missingOperator _ => "REQUIREMENT_MISSING_OPERATOR"
    | .unknownIdentifier _ => "REQUIREMENT_UNKNOWN_IDENTIFIER"
    | .invalidNumber _ => "REQUIREMENT_INVALID_NUMBER"
  message
    | .missingOperator text => "requirement " ++ quoted text ++ " has no comparison operator"
    | .unknownIdentifier name => "unknown requirement identifier " ++ quoted name
    | .invalidNumber text => "invalid requirement number " ++ quoted text
  severity _ := .validation

structure Requirement where
  subject : Subject
  comparison : Comparison
  threshold : Double
deriving DecidableEq

namespace Requirement

/-- The subject ends at the first character that can begin a comparison. -/
def read (text : List Char) : Except RequirementFault Requirement :=
  let text := Text.trim text
  let (subject, rest) := text.span fun c => !Comparison.isOperator c
  match Comparison.read? rest with
  | none => .error (.missingOperator (String.ofList text))
  | some (comparison, number) =>
    let subject := Text.trim subject
    match (Vocabulary.read? subject : Option Subject) with
    | none => .error (.unknownIdentifier (String.ofList subject))
    | some subject =>
      let number := Text.trim number
      match Binary.read? number with
      | none => .error (.invalidNumber (String.ofList number))
      | some threshold => .ok { subject, comparison, threshold }

def holds (r : Requirement) (s : Subjects) : Bool :=
  r.comparison.holds (Binary.ofInt (s.value r.subject)) r.threshold

/-- The beginning of the texts that mark a repeated slot. -/
def repeatMark : String := "SpendRepeat"

/-- Only a requirement that can be read and does not hold is not met. -/
def met (text : String) (s : Subjects) : Bool :=
  let text := Text.trim text.toList
  if text.isEmpty || (Text.after? repeatMark.toList text).isSome then true
  else
    match read text with
    | .ok r => r.holds s
    | .error _ => true

end Requirement
end CardBattle
