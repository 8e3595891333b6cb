import CardBattle.Content.Sheet.Document
import CardBattle.Settings

/-!
# CardBattle.Content.Assignments

Settings as a sheet: each setting is an integer under its key at the top of the sheet. Keys that
name no setting may have a value of any kind.

* `Settings.read?`: the settings that a text makes; those it does not name have their defaults.
-/

namespace CardBattle
namespace Assignments

/-- An integer between two bounds, or the default if the key is missing. -/
def intOr? (es : Sheet.Entries) (key : String) (default least greatest : Int) : Option Int :=
  match es.get? key with
  | none => some default
  | some (.value (.integer n)) => if least ≤ n && n ≤ greatest then some n else none
  | some _ => none

def amountOr? (es : Sheet.Entries) (key : String) (default : Int) : Option Int :=
  intOr? es key default (-2147483648) 2147483647

def countOr? (es : Sheet.Entries) (key : String) (default : Nat) : Option Nat :=
  (intOr? es key default 0 4294967295).map Int.toNat

end Assignments

def Settings.read? (text : String) : Option Settings := do
  let es ← Sheet.read? text.toList
  let d : Settings := {}
  return {
    playerMaxHp := ← Assignments.amountOr? es "player_max_hp" d.playerMaxHp
    handSize := ← Assignments.countOr? es "hand_size" d.handSize
    maxActionPoints := ← Assignments.amountOr? es "max_action_point" d.maxActionPoints
    gaugeDefault := ← Assignments.amountOr? es "gauge_default" d.gaugeDefault
    maxChainDepth := ← Assignments.countOr? es "max_chain_depth" d.maxChainDepth
    turnLimit := ← Assignments.countOr? es "turn_limit" d.turnLimit }

end CardBattle
