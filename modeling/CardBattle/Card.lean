import CardBattle.Bounds
import CardBattle.Settings
import CardBattle.Vocabulary

/-!
# CardBattle.Card

Cards as they are printed. A card has up to four effect slots; a slot names the kind of its
effect and keeps its value and its requirement as text, which is read when the slot runs.
-/

namespace CardBattle

inductive Element where
  | neutral
  | fire
  | water
  | earth
  | wind
  | lightning
deriving DecidableEq

instance : Inhabited Element := ⟨.neutral⟩

instance : Vocabulary Element where
  values := [.neutral, .fire, .water, .earth, .wind, .lightning]
  word
    | .neutral => "Neutral"
    | .fire => "Fire"
    | .water => "Water"
    | .earth => "Earth"
    | .wind => "Wind"
    | .lightning => "Lightning"

inductive Faction where
  | neutral
  | angel
  | demon
deriving DecidableEq

instance : Inhabited Faction := ⟨.neutral⟩

instance : Vocabulary Faction where
  values := [.neutral, .angel, .demon]
  word
    | .neutral => "Neutral"
    | .angel => "Angel"
    | .demon => "Demon"

inductive Rarity where
  | common
  | rare
  | epic
  | legendary
deriving DecidableEq

instance : Inhabited Rarity := ⟨.common⟩

instance : Vocabulary Rarity where
  values := [.common, .rare, .epic, .legendary]
  word
    | .common => "Common"
    | .rare => "Rare"
    | .epic => "Epic"
    | .legendary => "Legendary"

/-- What a slot does. The kind decides how the value of the slot is read. -/
inductive EffectKind where
  | none
  | singleDamage
  | areaDamage
  | selfDamage
  | selfFlatHeal
  | selfPercentHeal
  | angelUp
  | angelDown
  | demonUp
  | demonDown
  | gainAction
  | reduceCost
  | drawCards
  | burnDeck
  | burnHand
  | cleanseSelf
  | buffSelf
  | buffTarget
  | buffArea
  | castMore
  | delaySingle
  | delayArea
  | spendRepeat
deriving DecidableEq

instance : Inhabited EffectKind := ⟨.none⟩

instance : Vocabulary EffectKind where
  values :=
    [.none, .singleDamage, .areaDamage, .selfDamage, .selfFlatHeal, .selfPercentHeal, .angelUp,
      .angelDown, .demonUp, .demonDown, .gainAction, .reduceCost, .drawCards, .burnDeck,
      .burnHand, .cleanseSelf, .buffSelf, .buffTarget, .buffArea, .castMore, .delaySingle,
      .delayArea, .spendRepeat]
  word
    | .none => "None"
    | .singleDamage => "SingleDamage"
    | .areaDamage => "AOEDamage"
    | .selfDamage => "SelfDamage"
    | .selfFlatHeal => "SelfFlatHeal"
    | .selfPercentHeal => "SelfPercHeal"
    | .angelUp => "AvalueInc"
    | .angelDown => "AvalueDec"
    | .demonUp => "DvalueInc"
    | .demonDown => "DvalueDec"
    | .gainAction => "GainAction"
    | .reduceCost => "ReduceCost"
    | .drawCards => "InstDraw"
    | .burnDeck => "DeckBurn"
    | .burnHand => "HandBurn"
    | .cleanseSelf => "CleanseSelf"
    | .buffSelf => "SelfBuff"
    | .buffTarget => "TargetSingleBuff"
    | .buffArea => "TargetAOEBuff"
    | .castMore => "CastMore"
    | .delaySingle => "DelaySingleDamage"
    | .delayArea => "DelayAOEDamage"
    | .spendRepeat => "SpendRepeatTheRest"

namespace EffectKind

def word (k : EffectKind) : String := Vocabulary.word k

/-- The kinds whose value an enemy's attack scales. -/
def isFlatDamage : EffectKind → Bool
  | .singleDamage | .areaDamage | .selfDamage => true
  | _ => false

end EffectKind

structure Slot where
  kind : EffectKind
  value : String := ""
  requirement : String := ""
deriving DecidableEq

structure Card where
  id : String
  name : String
  element : Element := .neutral
  faction : Faction := .neutral
  deity : String := ""
  /-- Gauge shifts that follow the slots of a played card. -/
  angelShift : Int := 0
  demonShift : Int := 0
  rarity : Rarity := .common
  cost : Int
  description : String := ""
  slots : UpTo Settings.maxSlots Slot := UpTo.empty

end CardBattle
