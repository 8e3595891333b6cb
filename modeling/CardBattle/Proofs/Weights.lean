import CardBattle.Proofs.EchoBound
import CardBattle.Proofs.Quiet
import Mathlib.Algebra.Order.BigOperators.Group.List
import Mathlib.Algebra.Order.Group.Int

/-!
# CardBattle.Proofs.Weights

What the candidates of an enemy weigh. The rules of its behavior are gone through in order and
change the weights in place, but all that matters is the sum of the bonuses for each place, and it
is brought into the range of counts only once, at the end. The sum of the weights is not brought
into that range, and it can leave it.

* `Battle.bonus`, `Battle.weigh`, `candidates_eq`: the closed form of the candidates.
* `candidates_withRules_congr`: rules with the same sums of bonuses make the same candidates.
* `weighed`: neither the order of the rules nor void rules matter, and opposite bonuses cancel.
* `Behavior.peak`, `drawTotal_bounded`: how much all candidates of a behavior can weigh together.
* `drawTotal_heavy`: weights whose sum is no count.
-/

namespace CardBattle

/-! ## Blank conditions -/

/-- A blank text is no condition. -/
theorem Condition.read_blank {text : List Char} (blank : Text.trim text = []) :
    ∃ fault, read text = .error fault := by
  have silent : ',' ∉ text := fun there => by
    rw [← Text.mem_trim_iff (by decide), blank] at there
    cases there
  have none := Text.cut_eq_none_iff.mpr silent
  exact ⟨.format (String.ofList text), by simp only [read, none]⟩

/-! ## The closed form -/

namespace Battle

variable {b : Battle} {id : FighterId} {e : Enemy} {row : Behavior}

/-- The bonus of a rule for the weight at a place. There is none if the rule cannot be read, does
not hold or names another place. -/
def bonus (b : Battle) (id : FighterId) (place : Nat) (r : Rule) : Int :=
  match Condition.read r.condition.toList, RuleResult.read r.result.toList with
  | .ok c, .ok result => if c.evaluate b id ∧ result.slot = place then result.bonus else 0
  | _, _ => 0

/-- The candidate that a weight text makes at a place. -/
def weigh (b : Battle) (id : FighterId) (e : Enemy) (rules : List Rule) (place : Nat)
    (text : String) : Candidate :=
  match WeightSlot.read text.toList with
  | .error _ => { skillId := none, weight := 0 }
  | .ok w =>
    { skillId := some w.skillId
      weight :=
        match e.skill? w.skillId with
        | none => 0
        | some s =>
          if Requirement.met s.requirement (Subjects.of b e.fighter.id false) then
            (max 0 (min (Count.greatest : Int) (w.weight + (rules.map (b.bonus id place)).sum))).toNat
          else 0 }

theorem applies_eq (r : Rule) :
    b.applies id r =
      match Condition.read r.condition.toList with
      | .ok c => c.evaluate b id
      | .error _ => false := by
  simp only [applies, Condition.holds]
  cases blank : (Text.trim r.condition.toList).isEmpty with
  | false => rfl
  | true =>
    obtain ⟨fault, read⟩ := Condition.read_blank (List.isEmpty_iff.mp blank)
    rw [read]
    rfl

/-- One rule, seen from one place. -/
theorem getElem?_addBonus (ws : List (Option String × Int)) (r : Rule) (place : Nat) :
    (b.addBonus id ws r)[place]? = ws[place]?.map fun w => (w.1, w.2 + b.bonus id place r) := by
  have still : ws[place]? = ws[place]?.map fun w => (w.1, w.2 + 0) := by simp
  simp only [addBonus, applies_eq, bonus]
  cases Condition.read r.condition.toList with
  | error _ => exact still
  | ok c =>
    cases RuleResult.read r.result.toList with
    | error _ => simp
    | ok result =>
      by_cases holds : c.evaluate b id = true
      · simp only [holds, if_true, List.getElem?_modify, true_and]
        split
        · rfl
        · simp
      · simp [holds]

theorem getElem?_bonuses (rules : List Rule) (ws : List (Option String × Int)) (place : Nat) :
    (rules.foldl (b.addBonus id) ws)[place]? =
      ws[place]?.map fun w => (w.1, w.2 + (rules.map (b.bonus id place)).sum) := by
  induction rules generalizing ws with
  | nil => simp
  | cons r rs ih =>
    rw [List.foldl_cons, ih, getElem?_addBonus, Option.map_map, List.map_cons, List.sum_cons]
    exact congrArg (ws[place]?.map ·) (funext fun w => by simp [Int.add_assoc])

theorem saturate_toNat (n : Int) :
    Count.saturate n.toNat = (max 0 (min (Count.greatest : Int) n)).toNat := by
  simp only [Count.saturate, Count.greatest]
  omega

theorem behaviorCandidates_eq (b : Battle) (id : FighterId) (e : Enemy) (row : Behavior) :
    b.behaviorCandidates id e row = row.weights.items.mapIdx (b.weigh id e row.rules.items) := by
  apply List.ext_getElem?
  intro place
  simp only [behaviorCandidates, List.getElem?_map, getElem?_bonuses, List.getElem?_mapIdx,
    Option.map_map]
  refine congrArg (row.weights.items[place]?.map ·) (funext fun text => ?_)
  simp only [Function.comp_apply, baseWeight, weigh]
  cases WeightSlot.read text.toList with
  | error _ => rfl
  | ok w =>
    simp only [finalWeight, isUnlocked, saturate_toNat]
    cases e.skill? w.skillId <;> rfl

/-- The candidates of a living enemy with a behavior: one for each weight, in order. -/
theorem candidates_eq (there : b.enemy? id = some e) (alive : e.fighter.isAlive = true)
    (behaves : e.behavior = some row) :
    b.candidates id = row.weights.items.mapIdx (b.weigh id e row.rules.items) := by
  simp only [candidates, there, alive, if_true, behaves, behaviorCandidates_eq]

/-! ## Other rules -/

/-- The battle in which the behavior of an enemy has other rules. -/
def withRules (b : Battle) (id : FighterId) (rules : UpTo Settings.maxRules Rule) : Battle :=
  b.updateEnemy id fun e => { e with behavior := e.behavior.map fun row => { row with rules } }

section

variable {rules : UpTo Settings.maxRules Rule}

theorem enemy?_withRules (there : b.enemy? id = some e) :
    (b.withRules id rules).enemy? id =
      some { e with behavior := e.behavior.map fun row => { row with rules } } := by
  cases id with
  | player => cases there
  | enemy i =>
    have here : b.enemies[i]? = some e := there
    simp [withRules, updateEnemy, enemy?, here]

theorem player_withRules : (b.withRules id rules).player = b.player :=
  player_updateEnemy b id _

theorem enemies_withRules :
    (b.withRules id rules).enemies.map Enemy.fighter = b.enemies.map Enemy.fighter :=
  map_fighter_updateEnemy b id _ fun _ => rfl

theorem fighter?_withRules (t : FighterId) :
    (b.withRules id rules).fighter? t = b.fighter? t :=
  fighter?_congr (congrArg Player.fighter player_withRules) enemies_withRules t

theorem livingCount_withRules : (b.withRules id rules).livingCount = b.livingCount := by
  have count : ∀ b : Battle, b.livingCount = (b.enemies.map Enemy.fighter).countP Fighter.isAlive :=
    fun b => by rw [livingCount, List.countP_map]; rfl
  rw [count, count, enemies_withRules]

theorem turn_withRules : (b.withRules id rules).turn = b.turn := by
  cases id <;> rfl

/-- Conditions do not read rules. -/
theorem evaluate_withRules (there : b.enemy? id = some e) (c : Condition) :
    c.evaluate (b.withRules id rules) id = c.evaluate b id := by
  simp only [Condition.evaluate, Condition.numberHolds, fighter?_withRules, player_withRules,
    livingCount_withRules, turn_withRules, enemy?_withRules there, there]

theorem subjects_withRules (t : FighterId) (killed : Bool) :
    Subjects.of (b.withRules id rules) t killed = Subjects.of b t killed := by
  simp only [Subjects.of, fighter?_withRules, player_withRules]

theorem bonus_withRules (there : b.enemy? id = some e) (place : Nat) (r : Rule) :
    (b.withRules id rules).bonus id place r = b.bonus id place r := by
  simp only [bonus, evaluate_withRules there]

/-- The candidates with other rules are weighed in the old state. -/
theorem candidates_withRules (there : b.enemy? id = some e) (alive : e.fighter.isAlive = true)
    (behaves : e.behavior = some row) :
    (b.withRules id rules).candidates id =
      row.weights.items.mapIdx (b.weigh id e rules.items) := by
  have bonuses : (b.withRules id rules).bonus id = b.bonus id :=
    funext fun place => funext fun r => bonus_withRules there place r
  have changed : e.behavior.map (fun row => { row with rules }) = some { row with rules } := by
    rw [behaves]
    rfl
  rw [candidates_eq (enemy?_withRules there) alive changed]
  refine congrArg (row.weights.items.mapIdx ·) (funext fun place => funext fun text => ?_)
  simp only [weigh, bonuses, subjects_withRules, Enemy.skill?]

/-- Only the sums of the bonuses for the places that there are matter. -/
theorem candidates_withRules_congr (there : b.enemy? id = some e)
    (alive : e.fighter.isAlive = true) (behaves : e.behavior = some row)
    (same : ∀ place < row.weights.items.length,
      (rules.items.map (b.bonus id place)).sum = (row.rules.items.map (b.bonus id place)).sum) :
    (b.withRules id rules).candidates id = b.candidates id := by
  rw [candidates_withRules there alive behaves, candidates_eq there alive behaves]
  apply List.ext_getElem (by simp)
  intro place bound _
  rw [List.length_mapIdx] at bound
  simp only [List.getElem_mapIdx, weigh, same place bound]

end

end Battle

/-! ## Rules without effect -/

/-- The rule is malformed, or it names a weight that there is not. -/
def Rule.IsVoid (row : Behavior) (r : Rule) : Prop :=
  (∃ fault, Condition.read r.condition.toList = .error fault) ∨
    (∃ fault, RuleResult.read r.result.toList = .error fault) ∨
    ∃ result, RuleResult.read r.result.toList = .ok result ∧ row.weights.items.length ≤ result.slot

namespace Battle

variable {b : Battle} {id : FighterId} {e : Enemy} {row : Behavior}

/-- The rule can be read and holds, and this is its result. -/
def Grants (b : Battle) (id : FighterId) (r : Rule) (result : RuleResult) : Prop :=
  ∃ c, Condition.read r.condition.toList = .ok c ∧ c.evaluate b id = true ∧
    RuleResult.read r.result.toList = .ok result

theorem Grants.bonus_eq {r : Rule} {result : RuleResult} (h : b.Grants id r result)
    (place : Nat) : b.bonus id place r = if result.slot = place then result.bonus else 0 := by
  obtain ⟨c, condition, holds, read⟩ := h
  simp only [bonus, condition, read, holds, true_and]

theorem bonus_of_void {r : Rule} (void : r.IsVoid row) {place : Nat}
    (bound : place < row.weights.items.length) : b.bonus id place r = 0 := by
  obtain ⟨fault, condition⟩ | ⟨fault, read⟩ | ⟨result, read, beyond⟩ := void
  · simp only [bonus, condition]
  · simp only [bonus, read]
    cases Condition.read r.condition.toList <;> rfl
  · have other : result.slot ≠ place := by omega
    simp only [bonus, read]
    cases Condition.read r.condition.toList with
    | error _ => rfl
    | ok c => simp [other]

theorem sum_of_void {dropped : List Rule} (void : ∀ r ∈ dropped, r.IsVoid row) {place : Nat}
    (bound : place < row.weights.items.length) : (dropped.map (b.bonus id place)).sum = 0 := by
  refine List.sum_eq_zero fun n hn => ?_
  obtain ⟨r, hr, rfl⟩ := List.mem_map.mp hn
  exact bonus_of_void (void r hr) bound

/-- What the candidates of a living enemy with a behavior weigh, and which changes of its rules do
not matter. -/
structure Weighed (b : Battle) (id : FighterId) (e : Enemy) (row : Behavior) : Prop where
  candidates : b.candidates id = row.weights.items.mapIdx (b.weigh id e row.rules.items)
  permuted : ∀ rules : UpTo Settings.maxRules Rule, row.rules.items.Perm rules.items →
    (b.withRules id rules).candidates id = b.candidates id
  pruned : ∀ (rules : UpTo Settings.maxRules Rule) (dropped : List Rule),
    row.rules.items.Perm (rules.items ++ dropped) → (∀ r ∈ dropped, r.IsVoid row) →
      (b.withRules id rules).candidates id = b.candidates id
  /-- Opposite bonuses cancel, whichever comes first and however far below 0 it leads. -/
  evened : ∀ (rules : UpTo Settings.maxRules Rule) (r r' : Rule) (slot : Nat) (n : Int),
    row.rules.items.Perm (r :: r' :: rules.items) → b.Grants id r ⟨slot, n⟩ →
      b.Grants id r' ⟨slot, -n⟩ → (b.withRules id rules).candidates id = b.candidates id

theorem weighed (there : b.enemy? id = some e) (alive : e.fighter.isAlive = true)
    (behaves : e.behavior = some row) : b.Weighed id e row where
  candidates := candidates_eq there alive behaves
  permuted := by
    intro rules perm
    refine candidates_withRules_congr there alive behaves fun place _ => ?_
    exact (perm.map (b.bonus id place)).sum_eq.symm
  pruned := by
    intro rules dropped perm void
    refine candidates_withRules_congr there alive behaves fun place bound => ?_
    rw [(perm.map (b.bonus id place)).sum_eq, List.map_append, List.sum_append,
      sum_of_void void bound, Int.add_zero]
  evened := by
    intro rules r r' slot n perm granted granted'
    refine candidates_withRules_congr there alive behaves fun place _ => ?_
    rw [(perm.map (b.bonus id place)).sum_eq, List.map_cons, List.map_cons, List.sum_cons,
      List.sum_cons, granted.bonus_eq, granted'.bonus_eq]
    dsimp only
    split <;> omega

/-- A battle against an enemy with this behavior and these skills. -/
def opposed (row : Behavior) (skills : List OwnedSkill) : Battle :=
  { dealt [] 1 with
    enemies :=
      [Enemy.fresh (.enemy 0) { id := "dummy", name := "Dummy", hp := 50 } (some row) skills] }

/-- The first rule leads to -20, and the second makes up for it. -/
def wavering : Behavior :=
  { id := "wavering"
    weights := .ofList ["bite,10", "howl,5"]
    rules := .ofList
      [ { condition := "SelfLacksBuff,Guard", result := "Skill1,-30" },
        { condition := "SelfLacksBuff,Fragile", result := "Skill1,50" },
        { condition := "SelfLacksBuff,Guard", result := "Skill7,9" } ] }

def bite : OwnedSkill := { skill := { id := "bite", name := "Bite" }, requirement := "" }

theorem weighed_wavering :
    (opposed wavering [bite]).candidates (.enemy 0) = [⟨some "bite", 30⟩, ⟨some "howl", 0⟩] ∧
      (opposed wavering [bite]).Weighed (.enemy 0)
        (Enemy.fresh (.enemy 0) { id := "dummy", name := "Dummy", hp := 50 } (some wavering) [bite])
        wavering :=
  ⟨rfl, weighed rfl rfl rfl⟩

end Battle

/-! ## The sum of the weights -/

namespace Chance

theorem total_eq_sum (ws : List Nat) : total ws = ws.sum := by
  induction ws with
  | nil => rfl
  | cons w ws ih => rw [total_cons, ih, List.sum_cons]

namespace Stream

/-- The total as a machine adds it up that answers nothing once a sum is no count. -/
def checkedTotal (ws : List Nat) : Option Nat :=
  ws.foldlM (fun t w => if t + w ≤ Count.greatest then some (t + w) else none) 0

theorem foldlM_checked (ws : List Nat) (t : Nat) (start : t ≤ Count.greatest) :
    (ws.foldlM (fun t w => if t + w ≤ Count.greatest then some (t + w) else none) t : Option Nat) =
      if t + total ws ≤ Count.greatest then some (t + total ws) else none := by
  induction ws generalizing t with
  | nil => simp [start]
  | cons w ws ih =>
    rw [List.foldlM_cons, total_cons, ← Nat.add_assoc]
    by_cases fits : t + w ≤ Count.greatest
    · rw [if_pos fits]
      exact ih _ fits
    · have overflow : ¬ t + w + total ws ≤ Count.greatest := by omega
      rw [if_neg fits, if_neg overflow]
      rfl

theorem checkedTotal_eq (ws : List Nat) :
    checkedTotal ws = if total ws ≤ Count.greatest then some (total ws) else none := by
  have checked := foldlM_checked ws 0 (Nat.zero_le _)
  rwa [Nat.zero_add] at checked

end Stream
end Chance

/-- The most that a rule can add to the weight at a place. -/
def Rule.promise (place : Nat) (r : Rule) : Int :=
  match RuleResult.read r.result.toList with
  | .ok result => if result.slot = place then max 0 result.bonus else 0
  | .error _ => 0

namespace Behavior

/-- The most that a weight text can be worth at a place. -/
def peakAt (row : Behavior) (place : Nat) (text : String) : Nat :=
  match WeightSlot.read text.toList with
  | .error _ => 0
  | .ok w =>
    (max 0 (min (Count.greatest : Int)
      (w.weight + (row.rules.items.map (Rule.promise place)).sum))).toNat

/-- The most that all weights can be worth together. -/
def peak (row : Behavior) : Nat := (row.weights.items.mapIdx row.peakAt).sum

theorem peakAt_le (row : Behavior) (place : Nat) (text : String) :
    row.peakAt place text ≤ Count.greatest := by
  simp only [peakAt]
  split
  · exact Nat.zero_le _
  · omega

theorem peak_le (row : Behavior) : row.peak ≤ row.weights.items.length * Count.greatest := by
  have each : ∀ n ∈ row.weights.items.mapIdx row.peakAt, n ≤ Count.greatest := by
    intro n hn
    obtain ⟨place, bound, rfl⟩ := List.mem_mapIdx.mp hn
    exact peakAt_le row place _
  have all := List.sum_le_card_nsmul _ _ each
  rwa [List.length_mapIdx] at all

end Behavior

namespace Battle

open Chance

variable {b : Battle} {id : FighterId} {e : Enemy} {row : Behavior}

theorem bonus_le_promise (b : Battle) (id : FighterId) (place : Nat) (r : Rule) :
    b.bonus id place r ≤ r.promise place := by
  simp only [bonus, Rule.promise]
  cases RuleResult.read r.result.toList with
  | error _ => cases Condition.read r.condition.toList <;> exact Int.le_refl 0
  | ok result =>
    by_cases here : result.slot = place
    · have nonneg : (0 : Int) ≤ max 0 result.bonus := Int.le_max_left _ _
      cases Condition.read r.condition.toList with
      | error _ => simpa only [here, if_true] using nonneg
      | ok c =>
        simp only [here, and_true, if_true]
        split
        · exact Int.le_max_right _ _
        · exact nonneg
    · cases Condition.read r.condition.toList <;> simp [here]

theorem sum_bonus_le (b : Battle) (id : FighterId) (place : Nat) (rules : List Rule) :
    (rules.map (b.bonus id place)).sum ≤ (rules.map (Rule.promise place)).sum :=
  List.sum_le_sum fun r _ => b.bonus_le_promise id place r

theorem weigh_le_peakAt (b : Battle) (id : FighterId) (e : Enemy) (row : Behavior) (place : Nat)
    (text : String) : (b.weigh id e row.rules.items place text).weight ≤ row.peakAt place text := by
  have sums := b.sum_bonus_le id place row.rules.items
  simp only [weigh, Behavior.peakAt]
  cases WeightSlot.read text.toList with
  | error _ => exact Nat.le_refl 0
  | ok w =>
    simp only
    split
    · exact Nat.zero_le _
    · split
      · omega
      · exact Nat.zero_le _

/-- The weights that an enemy draws from. -/
def drawWeights (b : Battle) (id : FighterId) : List Nat := (b.candidates id).map Candidate.weight

theorem total_le_peak (there : b.enemy? id = some e) (behaves : e.behavior = some row) :
    Chance.total (b.drawWeights id) ≤ row.peak := by
  cases alive : e.fighter.isAlive with
  | false =>
    have none : b.candidates id = [] := by simp [candidates, there, alive]
    rw [drawWeights, none]
    exact Nat.zero_le _
  | true =>
    rw [drawWeights, candidates_eq there alive behaves, Chance.total_eq_sum]
    simp only [Behavior.peak, List.mapIdx_eq_zipIdx_map, List.map_map]
    exact List.sum_le_sum fun x _ => weigh_le_peakAt b id e row x.2 x.1

/-- The draw adds up the weights of an enemy as they are. Their sum is bounded by the peak of its
behavior; it is a count, and all sums on the way are, if the peak is. -/
theorem drawTotal_bounded (there : b.enemy? id = some e) (behaves : e.behavior = some row) :
    Chance.total (b.drawWeights id) ≤ row.peak ∧
      row.peak ≤ row.weights.items.length * Count.greatest ∧
      (Stream.checkedTotal (b.drawWeights id) = some (Chance.total (b.drawWeights id)) ↔
        Chance.total (b.drawWeights id) ≤ Count.greatest) ∧
      (row.peak ≤ Count.greatest →
        Stream.checkedTotal (b.drawWeights id) = some (Chance.total (b.drawWeights id))) := by
  have bound := total_le_peak there behaves
  have sums : Stream.checkedTotal (b.drawWeights id) = some (Chance.total (b.drawWeights id)) ↔
      Chance.total (b.drawWeights id) ≤ Count.greatest := by
    rw [Stream.checkedTotal_eq]
    split <;> simp [*]
  exact ⟨bound, row.peak_le, sums,
    fun small => sums.mpr (Nat.le_trans bound small)⟩

theorem drawTotal_wavering :
    wavering.peak = 65 ∧
      Stream.checkedTotal ((opposed wavering [bite]).drawWeights (.enemy 0)) =
        some (Chance.total ((opposed wavering [bite]).drawWeights (.enemy 0))) := by
  have peak : wavering.peak = 65 := rfl
  have small : wavering.peak ≤ Count.greatest := by
    rw [peak]
    decide
  exact ⟨peak, (drawTotal_bounded rfl rfl).2.2.2 small⟩

/-- Three weights, each of them a count. -/
def heavy : Behavior :=
  { id := "heavy", weights := .ofList ["bite,2147483647", "bite,2147483647", "bite,2147483647"] }

/-- The weights are counts, but their sum is not. -/
theorem drawTotal_heavy :
    (opposed heavy [bite]).drawWeights (.enemy 0) = [2147483647, 2147483647, 2147483647] ∧
      Count.greatest < Chance.total ((opposed heavy [bite]).drawWeights (.enemy 0)) ∧
      Stream.checkedTotal ((opposed heavy [bite]).drawWeights (.enemy 0)) = none := by
  have weights : (opposed heavy [bite]).drawWeights (.enemy 0) =
      [2147483647, 2147483647, 2147483647] := rfl
  rw [weights]
  exact ⟨rfl, by decide, by decide⟩

end Battle
end CardBattle
