import CardBattle.Requirement

/-!
# CardBattle.Condition

Conditions of enemy behavior: `kind,value`, as in `SelfHpBelow,50`. The value is the name of a
buff for the four kinds that ask for one, and a number for the others. A text that is no
condition never holds.

* `Condition.read`: the grammar.
* `Condition.holds`: whether a condition holds for an enemy against the player.
-/

namespace CardBattle

inductive ConditionKind where
  | selfHpBelow
  | selfHpAbove
  | targetHpBelow
  | targetHpAbove
  | selfBuffCount
  | selfDebuffCount
  | targetBuffCount
  | targetDebuffCount
  | selfHasBuff
  | selfLacksBuff
  | targetHasBuff
  | targetLacksBuff
  | angelAbove
  | demonAbove
  | turnAtLeast
  | castCountAtLeast
  | livingEnemiesAtMost
deriving DecidableEq

instance : Vocabulary ConditionKind where
  values :=
    [.selfHpBelow, .selfHpAbove, .targetHpBelow, .targetHpAbove, .selfBuffCount,
      .selfDebuffCount, .targetBuffCount, .targetDebuffCount, .selfHasBuff, .selfLacksBuff,
      .targetHasBuff, .targetLacksBuff, .angelAbove, .demonAbove, .turnAtLeast,
      .castCountAtLeast, .livingEnemiesAtMost]
  word
    | .selfHpBelow => "SelfHpBelow"
    | .selfHpAbove => "SelfHpAbove"
    | .targetHpBelow => "TargetHpBelow"
    | .targetHpAbove => "TargetHpAbove"
    | .selfBuffCount => "SelfBuffCount"
    | .selfDebuffCount => "SelfDebuffCount"
    | .targetBuffCount => "TargetBuffCount"
    | .targetDebuffCount => "TargetDebuffCount"
    | .selfHasBuff => "SelfHasBuff"
    | .selfLacksBuff => "SelfLacksBuff"
    | .targetHasBuff => "TargetHasBuff"
    | .targetLacksBuff => "TargetLacksBuff"
    | .angelAbove => "AmeterAbove"
    | .demonAbove => "DmeterAbove"
    | .turnAtLeast => "TurnAtLeast"
    | .castCountAtLeast => "CastCountAtLeast"
    | .livingEnemiesAtMost => "LivingEnemiesAtMost"

namespace ConditionKind

def word (k : ConditionKind) : String := Vocabulary.word k

def asksForBuff : ConditionKind → Bool
  | .selfHasBuff | .selfLacksBuff | .targetHasBuff | .targetLacksBuff => true
  | _ => false

end ConditionKind

inductive ConditionValue where
  | number (x : Single)
  | buff (kind : BuffKind)
deriving DecidableEq

inductive ConditionFault where
  | format (text : String)
  | unknownCondition (name : String)
  | invalidValue (kind : ConditionKind) (value : String)
deriving DecidableEq

instance : Fault ConditionFault where
  code
    | .format _ => "CONDITION_FORMAT"
    | .unknownCondition _ => "CONDITION_UNKNOWN_TYPE"
    | .invalidValue _ _ => "CONDITION_INVALID_VALUE"
  message
    | .format text => "condition " ++ quoted text ++ " must be '<ConditionType>,<Value>'"
    | .unknownCondition name => "unknown condition type " ++ quoted name
    | .invalidValue kind value =>
      "invalid value " ++ quoted value ++ " for condition " ++ kind.word
  severity _ := .validation

structure Condition where
  kind : ConditionKind
  value : ConditionValue
deriving DecidableEq

namespace Condition

def readValue? (kind : ConditionKind) (text : List Char) : Option ConditionValue :=
  if kind.asksForBuff then (Vocabulary.read? text).map .buff
  else (Binary.read? text).map .number

def read (text : List Char) : Except ConditionFault Condition :=
  match Text.cut ',' text with
  | none => .error (.format (String.ofList text))
  | some (kind, value) =>
    let kind := Text.trim kind
    let value := Text.trim value
    match (Vocabulary.read? kind : Option ConditionKind) with
    | none => .error (.unknownCondition (String.ofList kind))
    | some kind =>
      match readValue? kind value with
      | none => .error (.invalidValue kind (String.ofList value))
      | some value => .ok { kind, value }

def buffHolds (kind : ConditionKind) (buff : BuffKind) (self target : Fighter) : Bool :=
  match kind with
  | .selfHasBuff => self.buffs.has buff
  | .selfLacksBuff => !self.buffs.has buff
  | .targetHasBuff => target.buffs.has buff
  | .targetLacksBuff => !target.buffs.has buff
  | _ => false

/-- Percentages and gauges compare strictly; counts and turns include the number. -/
def numberHolds (kind : ConditionKind) (x : Single) (b : Battle) (id : FighterId)
    (self : Fighter) : Bool :=
  let target := b.player.fighter
  let atLeast (n : Nat) : Bool := Binary.le x (Binary.ofInt n)
  match kind with
  | .selfHpBelow => Binary.lt self.hpPercent x
  | .selfHpAbove => Binary.lt x self.hpPercent
  | .targetHpBelow => Binary.lt target.hpPercent x
  | .targetHpAbove => Binary.lt x target.hpPercent
  | .selfBuffCount => atLeast self.buffs.positiveCount
  | .selfDebuffCount => atLeast self.buffs.negativeCount
  | .targetBuffCount => atLeast target.buffs.positiveCount
  | .targetDebuffCount => atLeast target.buffs.negativeCount
  | .angelAbove => Binary.lt x (Binary.ofInt b.player.angel)
  | .demonAbove => Binary.lt x (Binary.ofInt b.player.demon)
  | .turnAtLeast => atLeast b.turn.toNat
  | .castCountAtLeast =>
    match b.enemy? id with
    | some e => atLeast e.casts.toNat
    | none => false
  | .livingEnemiesAtMost => Binary.le (Binary.ofInt b.livingCount) x
  | .selfHasBuff | .selfLacksBuff | .targetHasBuff | .targetLacksBuff => false

/-- Whether a condition holds for a fighter deciding against the player. -/
def evaluate (c : Condition) (b : Battle) (id : FighterId) : Bool :=
  match b.fighter? id with
  | none => false
  | some self =>
    match c.value with
    | .buff kind => buffHolds c.kind kind self b.player.fighter
    | .number x => numberHolds c.kind x b id self

/-- Whether a text is a condition that holds. -/
def holds (text : String) (b : Battle) (id : FighterId) : Bool :=
  match read text.toList with
  | .ok c => c.evaluate b id
  | .error _ => false

end Condition
end CardBattle
