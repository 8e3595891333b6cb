import CardBattle.Buff.Spec
import CardBattle.Combatants
import CardBattle.Delayed

/-!
# CardBattle.Effect

Effects, and how the value of a slot is read as one. The kind of the slot decides on the
grammar of its value: a number, an integer, a side and a distance, a damage and a delay, a
meter with cost and budget, or a buff. Blanks around the value and its fields do not count.

* `Effect`: what can be executed.
* `Effect.read`: the effect of a slot; `none` for the empty kind.
-/

namespace CardBattle

/-- What the repetition of slots is paid with. -/
inductive Meter where
  | angel
  | demon
  | actionPoints
deriving DecidableEq

instance : Vocabulary Meter where
  values := [.angel, .demon, .actionPoints]
  word
    | .angel => "Ametervalue"
    | .demon => "Dmetervalue"
    | .actionPoints => "ActionPoint"

/-- Who a buff lands on. -/
inductive BuffScope where
  | caster
  | target
  | opponents
deriving DecidableEq

inductive Effect where
  | damageTarget (amount : Single)
  | damageOpponents (amount : Single)
  | damageSelf (amount : Single)
  | healSelf (amount : Single)
  | healSelfPercent (percent : Single)
  | shiftGauge (gauge : Gauge) (delta : Int)
  | gainAction (amount : Int)
  | reduceCost (amount : Int)
  | drawCards (count : Nat)
  | burn (pile : Pile) (count : Nat)
  | cleanseSelf (count : Nat)
  | applyBuff (scope : BuffScope) (spec : BuffSpec)
  | castMore (side : Side) (distance : Nat)
  | delay (mode : DelayMode) (damage : Single) (turns : Int)
  | spendRepeat (meter : Meter) (cost budget : Int)
deriving DecidableEq

inductive EffectFault where
  | invalidNumber (kind : EffectKind) (value : String)
  | invalidFormat (kind : EffectKind) (value expected : String)
  | unknownMeter (name : String)
  | unknownSide (name : String)
  | buff (fault : BuffFault)
deriving DecidableEq

instance : Fault EffectFault where
  code
    | .invalidNumber _ _ => "EFFECT_INVALID_NUMBER"
    | .invalidFormat _ _ _ => "EFFECT_INVALID_FORMAT"
    | .unknownMeter _ => "EFFECT_UNKNOWN_METER"
    | .unknownSide _ => "EFFECT_UNKNOWN_SIDE"
    | .buff fault => Fault.code fault
  message
    | .invalidNumber kind value => kind.word ++ " expects a number, got " ++ quoted value
    | .invalidFormat kind value expected =>
      kind.word ++ " value " ++ quoted value ++ " does not match " ++ quoted expected
    | .unknownMeter name => "unknown meter " ++ quoted name
    | .unknownSide name => "unknown side " ++ quoted name
    | .buff fault => Fault.message fault
  severity _ := .validation

namespace Effect

variable (kind : EffectKind) (value : List Char)

/-- A number in a part of the value; the fault shows the whole value. -/
def number (part : List Char) : Except EffectFault Single :=
  match Binary.read? (Text.trim part) with
  | some x => .ok x
  | none => .error (.invalidNumber kind (String.ofList value))

def integer (part : List Char) : Except EffectFault Int :=
  match Numeral.int32? (Text.trim part) with
  | some n => .ok n
  | none => .error (.invalidNumber kind (String.ofList value))

/-- The opposite of an integer. The least amount has none. -/
def negated (part : List Char) : Except EffectFault Int :=
  match integer kind value part with
  | .error e => .error e
  | .ok n =>
    if n = Amount.least then .error (.invalidNumber kind (String.ofList value)) else .ok (-n)

/-- An integer, at least 0. -/
def count (part : List Char) : Except EffectFault Nat :=
  (integer kind value part).map Int.toNat

/-- The two parts around the first comma. -/
def pair (expected : String) : Except EffectFault (List Char × List Char) :=
  match Text.cut ',' value with
  | some parts => .ok parts
  | none => .error (.invalidFormat kind (String.ofList value) expected)

def buff (scope : BuffScope) : Except EffectFault Effect :=
  match BuffSpec.read value with
  | .ok spec => .ok (.applyBuff scope spec)
  | .error fault => .error (.buff fault)

def castMoreOf : Except EffectFault Effect :=
  match pair kind value "<Left|Right>,<n>" with
  | .error e => .error e
  | .ok (side, distance) =>
    match (Vocabulary.read? (Text.trim side) : Option Side) with
    | none => .error (.unknownSide (String.ofList (Text.trim side)))
    | some side => (count kind value distance).map fun n => .castMore side n

def delayOf (mode : DelayMode) : Except EffectFault Effect :=
  match pair kind value "<damage>,<delayTurns>" with
  | .error e => .error e
  | .ok (damage, turns) =>
    match number kind value damage with
    | .error e => .error e
    | .ok damage => (integer kind value turns).map fun turns => .delay mode damage turns

def spendRepeatOf : Except EffectFault Effect :=
  match (Text.fields ',' value).map Text.trim with
  | [meter, cost, budget] =>
    match (Vocabulary.read? meter : Option Meter) with
    | none => .error (.unknownMeter (String.ofList meter))
    | some meter =>
      match integer kind value cost with
      | .error e => .error e
      | .ok cost => (integer kind value budget).map fun budget => .spendRepeat meter cost budget
  | _ =>
    .error (.invalidFormat kind (String.ofList value) "<meter>,<costPerRepeat>,<maxTotal>")

/-- Reads a trimmed value of a kind other than the empty one. -/
def readTrimmed : Except EffectFault (Option Effect) :=
  match kind with
  | .none => .ok none
  | .singleDamage => (number kind value value).map fun x => some (.damageTarget x)
  | .areaDamage => (number kind value value).map fun x => some (.damageOpponents x)
  | .selfDamage => (number kind value value).map fun x => some (.damageSelf x)
  | .selfFlatHeal => (number kind value value).map fun x => some (.healSelf x)
  | .selfPercentHeal => (number kind value value).map fun x => some (.healSelfPercent x)
  | .angelUp => (integer kind value value).map fun n => some (.shiftGauge .angel n)
  | .angelDown => (negated kind value value).map fun n => some (.shiftGauge .angel n)
  | .demonUp => (integer kind value value).map fun n => some (.shiftGauge .demon n)
  | .demonDown => (negated kind value value).map fun n => some (.shiftGauge .demon n)
  | .gainAction => (integer kind value value).map fun n => some (.gainAction n)
  | .reduceCost => (integer kind value value).map fun n => some (.reduceCost n)
  | .drawCards => (count kind value value).map fun n => some (.drawCards n)
  | .burnDeck => (count kind value value).map fun n => some (.burn .draw n)
  | .burnHand => (count kind value value).map fun n => some (.burn .hand n)
  | .cleanseSelf => (count kind value value).map fun n => some (.cleanseSelf n)
  | .buffSelf => (buff value .caster).map some
  | .buffTarget => (buff value .target).map some
  | .buffArea => (buff value .opponents).map some
  | .castMore => (castMoreOf kind value).map some
  | .delaySingle => (delayOf kind value .single).map some
  | .delayArea => (delayOf kind value .area).map some
  | .spendRepeat => (spendRepeatOf kind value).map some

/-- The effect of a slot of a kind with a value. -/
def read (kind : EffectKind) (value : String) : Except EffectFault (Option Effect) :=
  readTrimmed kind (Text.trim value.toList)

end Effect
end CardBattle
