import CardBattle.Battle.Resolution
import CardBattle.Condition
import CardBattle.Tactics

/-!
# CardBattle.Battle.Intent

How enemies choose what to do next. Every weight of its behavior makes a skill a candidate, the
rules whose conditions hold add their bonuses, and skills that are locked have no weight. One
candidate is drawn in proportion to the weights; without any weight the enemy idles.

* `candidates`: the skills and their weights.
* `Candidate.draw`, `draw_cases`: the draw, and what it can answer.
* `chooseIntent`, `refreshIntents`: who draws.
* `performIntent`: the chosen skill is used.
-/

namespace CardBattle

/-- A skill and its weight. A weight that cannot be read names no skill. -/
structure Candidate where
  skillId : Option String
  weight : Nat
deriving DecidableEq

namespace Candidate

variable {σ : Type} [Chance.Generator σ]

/-- Draws a candidate in proportion to the weights and answers its skill. -/
def draw (candidates : List Candidate) (s : σ) : Option String × σ :=
  let (place, s) := Chance.Generator.weighted (candidates.map weight) s
  ((place.bind fun i => candidates[i]?).bind skillId, s)

/-- Either no place is drawn and no skill is answered, or the answer is the skill of a candidate
with a weight. -/
theorem draw_cases (candidates : List Candidate) (s : σ) :
    ((Chance.Generator.weighted (candidates.map weight) s).1 = none ∧
        (draw candidates s).1 = none) ∨
      ∃ (i : Nat) (c : Candidate),
        (Chance.Generator.weighted (candidates.map weight) s).1 = some i ∧
        candidates[i]? = some c ∧ 0 < c.weight ∧ (draw candidates s).1 = c.skillId := by
  cases drawn : (Chance.Generator.weighted (candidates.map weight) s).1 with
  | none => exact .inl ⟨rfl, by simp only [draw, drawn, Option.bind_none]⟩
  | some i =>
    obtain ⟨w, hw, pos⟩ := Chance.Generator.weighted_pos drawn
    rw [List.getElem?_map, Option.map_eq_some_iff] at hw
    obtain ⟨c, hc, rfl⟩ := hw
    exact .inr ⟨i, c, rfl, hc, pos, by simp only [draw, drawn, Option.bind_some, hc]⟩

/-- If what has a weight names a skill, and 32 bits hold the sum of the weights, no skill is
answered if nothing has a weight, and only then. -/
theorem draw_eq_none_iff {candidates : List Candidate} {s : σ}
    (named : ∀ c ∈ candidates, 0 < c.weight → c.skillId ≠ none)
    (fits : Chance.total (candidates.map weight) < 4294967296) :
    (draw candidates s).1 = none ↔ ∀ c ∈ candidates, c.weight = 0 := by
  obtain ⟨undrawn, none⟩ | ⟨_, c, _, hc, pos, some⟩ := draw_cases candidates s
  · refine iff_of_true none fun c hc => ?_
    have zero : Chance.total (candidates.map weight) = 0 :=
      Nat.eq_zero_of_not_pos fun heavy => Chance.Generator.weighted_some heavy fits s undrawn
    exact Chance.total_eq_zero_iff.mp zero _ (List.mem_map_of_mem hc)
  · have there := List.mem_of_getElem? hc
    refine iff_of_false (some ▸ named c there pos) fun weightless => ?_
    rw [weightless c there] at pos
    exact Nat.lt_irrefl 0 pos

end Candidate

namespace Battle

/-- Whether an enemy owns a skill and meets its requirement. -/
def isUnlocked (b : Battle) (e : Enemy) (skillId : String) : Bool :=
  match e.skill? skillId with
  | none => false
  | some s => Requirement.met s.requirement (Subjects.of b e.fighter.id false)

/-- The skill and the base of a weight text. -/
def baseWeight (text : String) : Option String × Int :=
  match WeightSlot.read text.toList with
  | .ok w => (some w.skillId, w.weight)
  | .error _ => (none, 0)

/-- Whether a rule applies: its condition is not blank and holds. -/
def applies (b : Battle) (id : FighterId) (r : Rule) : Bool :=
  !(Text.trim r.condition.toList).isEmpty && Condition.holds r.condition b id

/-- Adds the bonus of a rule to the weight that it names, if there is one. -/
def addBonus (b : Battle) (id : FighterId) (weights : List (Option String × Int)) (r : Rule) :
    List (Option String × Int) :=
  if b.applies id r then
    match RuleResult.read r.result.toList with
    | .ok result => weights.modify result.slot fun w => (w.1, w.2 + result.bonus)
    | .error _ => weights
  else weights

/-- The final weight: 0 for a locked skill, else the sum as a count. -/
def finalWeight (b : Battle) (e : Enemy) (w : Option String × Int) : Candidate :=
  match w.1 with
  | none => { skillId := none, weight := 0 }
  | some id =>
    { skillId := some id, weight := if b.isUnlocked e id then Count.saturate w.2.toNat else 0 }

/-- The candidates of a behavior. -/
def behaviorCandidates (b : Battle) (id : FighterId) (e : Enemy) (behavior : Behavior) :
    List Candidate :=
  let bases := behavior.weights.items.map baseWeight
  (behavior.rules.items.foldl (b.addBonus id) bases).map (b.finalWeight e)

/-- The candidates of an enemy. Without a behavior each unlocked skill has weight 1; the dead
have none. -/
def candidates (b : Battle) (id : FighterId) : List Candidate :=
  match b.enemy? id with
  | none => []
  | some e =>
    if e.fighter.isAlive then
      match e.behavior with
      | some behavior => b.behaviorCandidates id e behavior
      | none =>
        e.skills.map fun s =>
          { skillId := some s.skill.id, weight := if b.isUnlocked e s.skill.id then 1 else 0 }
    else []

/-- Draws the next intent of an enemy, keeps it and tells it. -/
def chooseIntent (id : FighterId) (b : Battle) : Option String × Battle :=
  let (intent, chance) := Candidate.draw (b.candidates id) b.chance
  let b := { b with chance }
  match b.enemy? id with
  | none => (none, b)
  | some _ =>
    (intent, (b.updateEnemy id fun e => { e with intent }).emit (.intentChosen id intent))

/-- Every living enemy chooses, in battle order. -/
def refreshIntents (b : Battle) : Battle :=
  b.living.foldl (fun b id => (b.chooseIntent id).2) b

/-- A living enemy uses the skill of its intent; answers whether that killed. -/
def performIntent (id : FighterId) (b : Battle) : Bool × Battle :=
  match b.enemy? id with
  | none => (false, b)
  | some e =>
    if e.fighter.isAlive then
      match e.intentSkill? with
      | none => (false, b)
      | some s =>
        let b := b.updateEnemy id fun e => { e with casts := e.casts + 1 }
        (b.emit (.skillUsed id s.skill.id)).resolveSkill id s.skill e.monster.attack
    else (false, b)

end Battle
end CardBattle
