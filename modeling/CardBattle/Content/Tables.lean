import CardBattle.Catalog
import CardBattle.Content.Document

/-!
# CardBattle.Content.Tables

Catalogs as data files: a record of up to four lists, of cards, enemies, behaviors and skills.
A list that is longer than a card or a monster has room for is refused, not cut.

* `Catalog.read?`: the catalog that a text describes.
-/

namespace CardBattle
namespace Content

def upTo? {α : Type} (n : Nat) (reader : Value → Option α) (v : Value) : Option (UpTo n α) :=
  (v.list? reader).bind UpTo.ofList?

def slot? (style : Style) (v : Value) : Option Slot := do
  let fs ← v.record? style "EffectSlot"
  return {
    kind := ← fs.required? "effect_type" Value.word?
    value := ← fs.optional? "value" "" Value.text?
    requirement := ← fs.optional? "requirement" "" Value.text? }

def card? (style : Style) (v : Value) : Option Card := do
  let fs ← v.record? style "CardRow"
  return {
    id := ← fs.required? "id" Value.text?
    name := ← fs.required? "display_name" Value.text?
    element := ← fs.optional? "element" .neutral Value.word?
    faction := ← fs.optional? "faction" .neutral Value.word?
    deity := ← fs.optional? "god_type" "" Value.text?
    angelShift := ← fs.optional? "avalue_inc" 0 Value.int32?
    demonShift := ← fs.optional? "dvalue_inc" 0 Value.int32?
    rarity := ← fs.optional? "rarity" .common Value.word?
    cost := ← fs.required? "action_cost" Value.int32?
    description := ← fs.optional? "description" "" Value.text?
    slots := ← fs.optional? "effects" UpTo.empty (upTo? _ (slot? style)) }

def resistances? (style : Style) (v : Value) : Option Resistances := do
  let fs ← v.record? style "Resistances"
  return {
    fire := ← fs.optional? "fire" 0 Value.int32?
    water := ← fs.optional? "water" 0 Value.int32?
    earth := ← fs.optional? "earth" 0 Value.int32?
    wind := ← fs.optional? "wind" 0 Value.int32?
    lightning := ← fs.optional? "lightning" 0 Value.int32? }

def skillRef? (style : Style) (v : Value) : Option SkillRef := do
  let fs ← v.record? style "EnemySkillRef"
  return {
    skillId := ← fs.required? "skill_id" Value.text?
    requirement := ← fs.optional? "requirement" "" Value.text? }

def monster? (style : Style) (v : Value) : Option Monster := do
  let fs ← v.record? style "EnemyRow"
  return {
    id := ← fs.required? "id" Value.text?
    name := ← fs.required? "display_name" Value.text?
    hp := ← fs.required? "hp" Value.int32?
    attack := ← fs.optional? "base_atk" 100 Value.int32?
    resistances := ← fs.optional? "resistances" {} (resistances? style)
    behaviorId := ← fs.optional? "behavior_id" none (Value.option? style Value.text?)
    skills := ← fs.optional? "skills" UpTo.empty (upTo? _ (skillRef? style)) }

def rule? (style : Style) (v : Value) : Option Rule := do
  let fs ← v.record? style "BehaviorRuleRow"
  return {
    condition := ← fs.required? "condition" Value.text?
    result := ← fs.required? "result" Value.text? }

def behavior? (style : Style) (v : Value) : Option Behavior := do
  let fs ← v.record? style "EnemyBehaviorRow"
  return {
    id := ← fs.required? "id" Value.text?
    weights := ← fs.optional? "skill_weights" UpTo.empty (upTo? _ Value.text?)
    rules := ← fs.optional? "rules" UpTo.empty (upTo? _ (rule? style)) }

def skillEffect? (style : Style) (v : Value) : Option SkillEffect := do
  let fs ← v.record? style "SkillEffectSlot"
  return {
    kind := ← fs.required? "effect_type" Value.word?
    value := ← fs.required? "value" Value.single? }

def skill? (style : Style) (v : Value) : Option Skill := do
  let fs ← v.record? style "MonsterSkillRow"
  return {
    id := ← fs.required? "id" Value.text?
    name := ← fs.required? "display_name" Value.text?
    type := ← fs.optional? "skill_type" .attack Value.word?
    effects := ← fs.optional? "effects" UpTo.empty (upTo? _ (skillEffect? style)) }

def catalog? (style : Style) (v : Value) : Option Catalog := do
  let fs ← v.record? style "TablesFile"
  let cards ← fs.optional? "cards" [] (Value.list? (card? style))
  let monsters ← fs.optional? "enemies" [] (Value.list? (monster? style))
  let behaviors ← fs.optional? "behaviors" [] (Value.list? (behavior? style))
  let skills ← fs.optional? "skills" [] (Value.list? (skill? style))
  return Catalog.ofLists cards monsters behaviors skills

end Content

def Catalog.read? (text : String) : Option Catalog :=
  (Document.read? text.toList).bind fun (style, v) => Content.catalog? style v

end CardBattle
