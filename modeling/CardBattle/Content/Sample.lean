import CardBattle.Catalog

/-!
# CardBattle.Content.Sample

A small sample of content: ten cards, and two enemies with their behaviors and skills.
-/

namespace CardBattle
namespace Sample

def slot (kind : EffectKind) (value : String) (requirement : String := "") : Slot :=
  { kind, value, requirement }

def cards : List Card :=
  [ { id := "strike", name := "Strike", cost := 1
      description := "Deal 6 damage."
      slots := .ofList [slot .singleDamage "6"] },
    { id := "holy_smite", name := "Holy Smite", element := .lightning, faction := .angel
      cost := 2, angelShift := 10
      description := "Deal 10 damage. With 60 angel gauge, deal 6 more."
      slots := .ofList [slot .singleDamage "10", slot .singleDamage "6" "Ametervalue>=60"] },
    { id := "hellfire", name := "Hellfire", element := .fire, faction := .demon, rarity := .rare
      cost := 2, demonShift := 15
      description := "Deal 7 damage to all enemies. Take 3 damage."
      slots := .ofList [slot .areaDamage "7", slot .selfDamage "3"] },
    { id := "bulwark", name := "Bulwark", cost := 1, angelShift := 5
      description := "Block the next hit."
      slots := .ofList [slot .buffSelf "Guard,0,1,1"] },
    { id := "mend", name := "Mend", faction := .angel, cost := 1
      description := "Heal 8. Lower the demon gauge by 10."
      slots := .ofList [slot .selfFlatHeal "8", slot .demonDown "10"] },
    { id := "rend", name := "Rend", faction := .demon, cost := 1, demonShift := 5
      description := "Deal 4 damage and apply 2 Bleeding."
      slots := .ofList [slot .singleDamage "4", slot .buffTarget "Bleeding,5,2,3"] },
    { id := "meteor", name := "Meteor", element := .fire, rarity := .epic, cost := 2
      description := "In 2 turns, deal 18 damage to all enemies."
      slots := .ofList [slot .delayArea "18,2"] },
    { id := "echo", name := "Echo", rarity := .rare, cost := 1
      description := "Cast the card to the left again."
      slots := .ofList [slot .castMore "Left,1"] },
    { id := "prayer", name := "Prayer", faction := .angel, rarity := .epic, cost := 0
      description := "Spend up to 2 action points: heal 4 for each."
      slots := .ofList
        [slot .spendRepeat "ActionPoint,1,2", slot .selfFlatHeal "4" "SpendRepeat"] },
    { id := "insight", name := "Insight", cost := 1
      description := "Draw 2 cards. Reduce this card's cost by 1."
      slots := .ofList [slot .drawCards "2", slot .reduceCost "1"] } ]

def monsters : List Monster :=
  [ { id := "slime", name := "Slime", hp := 40
      resistances := { water := 30 }
      behaviorId := some "slime_ai"
      skills := .ofList
        [{ skillId := "splash" }, { skillId := "harden", requirement := "hp<30" }] },
    { id := "goblin", name := "Goblin", hp := 55, attack := 120
      resistances := { fire := -10, earth := 20 }
      behaviorId := some "goblin_ai"
      skills := .ofList [{ skillId := "stab" }, { skillId := "war_cry" }, { skillId := "hex" }] } ]

def behaviors : List Behavior :=
  [ { id := "slime_ai"
      weights := .ofList ["splash,10", "harden,0"]
      rules := .ofList [{ condition := "SelfHpBelow,50", result := "Skill2,30" }] },
    { id := "goblin_ai"
      weights := .ofList ["stab,20", "war_cry,5", "hex,5"]
      rules := .ofList
        [ { condition := "SelfLacksBuff,IncreaseDmg", result := "Skill2,10" },
          { condition := "TargetLacksBuff,Fragile", result := "Skill3,10" },
          { condition := "TargetHpBelow,30", result := "Skill1,40" } ] } ]

def effect (kind : EffectKind) (value : Int) : SkillEffect :=
  { kind, value := Binary.ofInt value }

def skills : List Skill :=
  [ { id := "splash", name := "Splash", effects := .ofList [effect .singleDamage 6] },
    { id := "harden", name := "Harden", type := .defense
      effects := .ofList [effect .selfFlatHeal 8] },
    { id := "stab", name := "Stab", effects := .ofList [effect .singleDamage 7] },
    { id := "war_cry", name := "War Cry", type := .buff
      effects := .ofList [effect .selfPercentHeal 5, effect .singleDamage 3] },
    { id := "hex", name := "Hex", type := .debuff, effects := .ofList [effect .areaDamage 4] } ]

def catalog : Catalog := .ofLists cards monsters behaviors skills

/-- Automatic play of the sample stops after 30 turns. -/
def settings : Settings := { turnLimit := 30 }

end Sample
end CardBattle
