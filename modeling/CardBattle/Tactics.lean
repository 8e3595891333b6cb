import CardBattle.Fault
import CardBattle.Numeral

/-!
# CardBattle.Tactics

The texts of a behavior: weights `skill,weight` and results of rules `SkillN,bonus`, where `N`
counts the weights from 1.
-/

namespace CardBattle

inductive TacticsFault where
  | weightFormat (text : String)
  | resultFormat (text : String)
  | invalidWeight (text : String)
  | invalidSlot (slot : Nat)
deriving DecidableEq

instance : Fault TacticsFault where
  code
    | .weightFormat _ => "BEHAVIOR_WEIGHT_FORMAT"
    | .resultFormat _ => "BEHAVIOR_RESULT_FORMAT"
    | .invalidWeight _ => "BEHAVIOR_INVALID_WEIGHT"
    | .invalidSlot _ => "BEHAVIOR_INVALID_SLOT"
  message
    | .weightFormat text => "weight slot " ++ quoted text ++ " must be '<skillId>,<baseWeight>'"
    | .resultFormat text => "rule result " ++ quoted text ++ " must be 'Skill<N>,<bonusWeight>'"
    | .invalidWeight text => "invalid weight " ++ quoted text
    | .invalidSlot slot =>
      "rule result addresses Skill" ++ Numeral.text slot ++ ", slots are numbered from 1"
  severity _ := .validation

namespace Tactics

def weight (text : List Char) : Except TacticsFault Int :=
  match Numeral.int32? (Text.trim text) with
  | some n => .ok n
  | none => .error (.invalidWeight (String.ofList (Text.trim text)))

end Tactics

/-- A skill with the weight of its choice. -/
structure WeightSlot where
  skillId : String
  weight : Int
deriving DecidableEq

def WeightSlot.read (text : List Char) : Except TacticsFault WeightSlot :=
  match Text.cut ',' text with
  | none => .error (.weightFormat (String.ofList text))
  | some (skill, weight) =>
    let skill := Text.trim skill
    if skill.isEmpty then .error (.weightFormat (String.ofList text))
    else (Tactics.weight weight).map fun w => { skillId := String.ofList skill, weight := w }

/-- A bonus for the weight at a place, counted from 0. -/
structure RuleResult where
  slot : Nat
  bonus : Int
deriving DecidableEq

namespace RuleResult

/-- The number behind the word `skill`, in any case. -/
def slotNumber? (text : List Char) : Option Nat :=
  if Text.sameLetters "skill".toList (text.take 5) then Numeral.nat64? (text.drop 5) else none

def read (text : List Char) : Except TacticsFault RuleResult :=
  match Text.cut ',' text with
  | none => .error (.resultFormat (String.ofList text))
  | some (slot, bonus) =>
    match slotNumber? (Text.trim slot) with
    | none => .error (.resultFormat (String.ofList text))
    | some 0 => .error (.invalidSlot 0)
    | some (n + 1) => (Tactics.weight bonus).map fun b => { slot := n, bonus := b }

end RuleResult
end CardBattle
