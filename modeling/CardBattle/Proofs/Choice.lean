import CardBattle.Proofs.Telegraph
import CardBattle.Proofs.Weights

/-!
# CardBattle.Proofs.Choice

Enemies intend what they can do. The draw answers a place among the weights, the place leads to a
candidate, the candidate to the name of a skill, and the name, a whole round later, to a skill of
the enemy. None of these links can break: an enemy without an intent has had nothing to choose
from, and an enemy with one acts.

* `Battle.Offers`, `offers_of_weight`: what a candidate with a weight is.
* `Battle.Chooses`, `chooses`: the choice of an enemy.
* `performIntent_eq_self_iff`: when a living enemy idles.
* `Session.executable_run`: so it is at any time of a battle that has been started.
-/

namespace CardBattle

namespace Battle

variable {b : Battle} {id : FighterId} {e : Enemy} {s : OwnedSkill}

/-! ## Candidates -/

/-- An enemy owns a skill whose requirement it meets now, and the candidate at a place is this
skill, with a weight. If the enemy has a behavior, the weight text at the place can be read and
names the skill. -/
structure Offers (b : Battle) (id : FighterId) (e : Enemy) (place : Nat) (s : OwnedSkill) :
    Prop where
  owned : e.skill? s.skill.id = some s
  met : Requirement.met s.requirement (Subjects.of b id false) = true
  weighs : ∃ weight, 0 < weight ∧ (b.candidates id)[place]? = some ⟨some s.skill.id, weight⟩
  read : ∀ row, e.behavior = some row → ∃ text base, row.weights.items[place]? = some text ∧
    WeightSlot.read text.toList = .ok ⟨s.skill.id, base⟩

theorem weigh_pos {rules : List Rule} {place : Nat} {text : String}
    (h : 0 < (b.weigh id e rules place text).weight) :
    ∃ w, WeightSlot.read text.toList = .ok w ∧
      (b.weigh id e rules place text).skillId = some w.skillId ∧
      b.isUnlocked e w.skillId = true := by
  cases read : WeightSlot.read text.toList with
  | error fault => simp [weigh, read] at h
  | ok w =>
    simp only [weigh, read] at h ⊢
    refine ⟨w, rfl, rfl, ?_⟩
    simp only [isUnlocked]
    cases owned : e.skill? w.skillId with
    | none => simp [owned] at h
    | some s =>
      simp only [owned] at h ⊢
      split at h
      · assumption
      · cases h

/-- A candidate with a weight is an offer. -/
theorem offers_of_weight (there : b.enemy? id = some e) (named : e.fighter.id = id) {place : Nat}
    {c : Candidate} (hc : (b.candidates id)[place]? = some c) (weight : 0 < c.weight) :
    ∃ s, c.skillId = some s.skill.id ∧ b.Offers id e place s := by
  cases alive : e.fighter.isAlive with
  | false => simp [candidates, there, alive] at hc
  | true =>
    cases behaves : e.behavior with
    | none =>
      have bare := hc
      simp only [candidates, there, alive, if_true, behaves, List.getElem?_map,
        Option.map_eq_some_iff] at bare
      obtain ⟨s', _, rfl⟩ := bare
      have unlocked : b.isUnlocked e s'.skill.id = true := by
        by_contra locked
        simp [locked] at weight
      obtain ⟨s, owned, same, met⟩ := exists_skill_of_isUnlocked unlocked
      rw [named] at met
      refine ⟨s, congrArg some same.symm, by rw [same, owned], met, ⟨_, weight, ?_⟩, ?_⟩
      · rw [hc, same]
      · rintro row eq
        rw [behaves] at eq
        cases eq
    | some row =>
      have weighed := hc
      rw [candidates_eq there alive behaves, List.getElem?_mapIdx,
        Option.map_eq_some_iff] at weighed
      obtain ⟨text, found, rfl⟩ := weighed
      obtain ⟨w, read, skillId, unlocked⟩ := weigh_pos weight
      obtain ⟨s, owned, same, met⟩ := exists_skill_of_isUnlocked unlocked
      rw [named] at met
      rw [← same] at skillId owned
      refine ⟨s, skillId, owned, met, ⟨_, weight, ?_⟩, ?_⟩
      · rw [hc, ← skillId]
      · rintro row' eq
        rw [behaves, Option.some.injEq] at eq
        subst eq
        exact ⟨text, w.weight, found, by rw [read, same]⟩

/-! ## The choice -/

/-- An enemy keeps what it has chosen. It has chosen nothing if the sum of the weights is 0 in 32
bits, and else one of its offers. If 32 bits hold the sum, it has chosen nothing if no candidate has
a weight. -/
structure Chooses (b : Battle) (id : FighterId) (e : Enemy) : Prop where
  stored : (b.chooseIntent id).2.enemy? id = some { e with intent := (b.chooseIntent id).1 }
  none_iff : Chance.total ((b.candidates id).map Candidate.weight) < 4294967296 →
    ((b.chooseIntent id).1 = none ↔ ∀ c ∈ b.candidates id, c.weight = 0)
  none_iff_sum : (b.chooseIntent id).1 = none ↔
    Chance.total ((b.candidates id).map Candidate.weight) % 4294967296 = 0
  chosen : ∀ skillId, (b.chooseIntent id).1 = some skillId →
    ∃ place s, s.skill.id = skillId ∧ b.Offers id e place s

theorem enemy?_chooseIntent (there : b.enemy? id = some e) :
    (b.chooseIntent id).2.enemy? id = some { e with intent := (b.chooseIntent id).1 } := by
  cases id with
  | player => cases there
  | enemy i =>
    have here : b.enemies[i]? = some e := there
    simp [chooseIntent, enemy?, here, updateEnemy, emit]

theorem chooseIntent_fst (there : b.enemy? id = some e) :
    (b.chooseIntent id).1 = (Candidate.draw (b.candidates id) b.chance).1 := by
  cases id with
  | player => cases there
  | enemy i =>
    have here : b.enemies[i]? = some e := there
    simp [chooseIntent, enemy?, here]

/-- Either no place has been drawn, or the choice falls on the offer at the place. -/
theorem chooseIntent_cases (there : b.enemy? id = some e) (named : e.fighter.id = id) :
    ((b.chance.weighted ((b.candidates id).map Candidate.weight)).1 = none ∧
        (b.chooseIntent id).1 = none) ∨
      ∃ place s, (b.chance.weighted ((b.candidates id).map Candidate.weight)).1 = some place ∧
        (b.chooseIntent id).1 = some s.skill.id ∧ b.Offers id e place s := by
  rw [chooseIntent_fst there]
  obtain none | ⟨place, c, drawn, hc, weight, answer⟩ :=
    Candidate.draw_cases (b.candidates id) b.chance
  · exact .inl none
  · obtain ⟨s, skillId, offers⟩ := offers_of_weight there named hc weight
    exact .inr ⟨place, s, drawn, answer.trans skillId, offers⟩

theorem chooses (there : b.enemy? id = some e) (named : e.fighter.id = id) : b.Chooses id e where
  stored := enemy?_chooseIntent there
  none_iff fits := by
    have offered : ∀ c ∈ b.candidates id, 0 < c.weight → c.skillId ≠ none := by
      intro c hc weight
      obtain ⟨place, hp⟩ := List.mem_iff_getElem?.mp hc
      obtain ⟨s, skillId, _⟩ := offers_of_weight there named hp weight
      simp [skillId]
    rw [chooseIntent_fst there]
    exact Candidate.draw_eq_none_iff offered fits
  none_iff_sum := by
    rw [← Chance.Stream.weighted_eq_none_iff (s := b.chance)]
    obtain ⟨undrawn, none⟩ | ⟨_, _, drawn, some, _⟩ := chooseIntent_cases there named
    · exact iff_of_true none undrawn
    · exact iff_of_false (by simp [some]) (by simp [drawn])
  chosen skillId choice := by
    obtain ⟨_, none⟩ | ⟨place, s, _, some, offers⟩ := chooseIntent_cases there named
    · rw [none] at choice
      cases choice
    · rw [some, Option.some.injEq] at choice
      exact ⟨place, s, choice, offers⟩

/-! ## The deed -/

/-- A living enemy with a skill in mind uses it. -/
theorem performIntent_of_intentSkill? (there : b.enemy? id = some e)
    (alive : e.fighter.isAlive = true) (minds : e.intentSkill? = some s) :
    b.performIntent id = (b.casting id s.skill).resolveSkill id s.skill e.monster.attack := by
  simp only [performIntent, there, alive, if_true, minds, casting]

/-- Whatever a skill does, it has been told. -/
theorem events_resolveSkill_casting (b : Battle) (i : Nat) (skill : Skill) (attack : Int) :
    ∃ es, ((b.casting (.enemy i) skill).resolveSkill (.enemy i) skill attack).2.events.toList =
      b.events.toList ++ .skillUsed (.enemy i) skill.id :: es := by
  obtain ⟨es, events, _⟩ := (resolveSkill_deeds (b.casting (.enemy i) skill) i skill attack).plain
  refine ⟨es, ?_⟩
  rw [events, casting, emit, Array.toList_push, events_updateEnemy, List.append_assoc]
  rfl

/-- A living enemy whose intent is in order idles if it has none, and only then. -/
theorem performIntent_eq_self_iff (there : b.enemy? id = some e)
    (alive : e.fighter.isAlive = true) (ready : e.Ready) :
    b.performIntent id = (false, b) ↔ e.intent = none := by
  cases id with
  | player => cases there
  | enemy i =>
    cases minds : e.intentSkill? with
    | none =>
      have none : e.intent = none := by rw [ready, minds]; rfl
      refine iff_of_true ?_ none
      simp only [performIntent, there, alive, if_true, minds]
    | some s =>
      have some : e.intent = some s.skill.id := by rw [ready, minds]; rfl
      refine iff_of_false (fun still => ?_) (by simp [some])
      obtain ⟨es, told⟩ := events_resolveSkill_casting b i s.skill e.monster.attack
      rw [← performIntent_of_intentSkill? there alive minds, still] at told
      simp at told

/-- What enemies choose they can do, and what they have chosen they do. -/
structure Executable (b : Battle) : Prop where
  chooses : ∀ id e, b.enemy? id = some e → b.Chooses id e
  resolves : ∀ id e, b.enemy? id = some e →
    e.intent = none ∨ ∃ s ∈ e.skills, e.intentSkill? = some s ∧ e.intent = some s.skill.id
  performs : ∀ id e s, b.enemy? id = some e → e.fighter.isAlive = true →
    e.intentSkill? = some s →
      b.performIntent id = (b.casting id s.skill).resolveSkill id s.skill e.monster.attack
  idles_iff : ∀ id e, b.enemy? id = some e → e.fighter.isAlive = true →
    (b.performIntent id = (false, b) ↔ e.intent = none)

theorem Named.enemy?_id (named : b.Named) (there : b.enemy? id = some e) : e.fighter.id = id :=
  named id e.fighter (fighter?_of_enemy? there)

theorem Ready.enemy? (ready : b.Ready) (there : b.enemy? id = some e) : e.Ready := by
  cases id with
  | player => cases there
  | enemy i => exact ready e (List.mem_of_getElem? there)

end Battle

theorem Enemy.Ready.resolves {e : Enemy} (h : e.Ready) :
    e.intent = none ∨ ∃ s ∈ e.skills, e.intentSkill? = some s ∧ e.intent = some s.skill.id := by
  cases minds : e.intentSkill? with
  | none => exact .inl (by rw [h, minds]; rfl)
  | some s =>
    have names : e.intent = some s.skill.id := by rw [h, minds]; rfl
    simp only [intentSkill?, names] at minds
    exact .inr ⟨s, List.mem_of_find?_eq_some minds, rfl, names⟩

theorem Battle.executable_of {b : Battle} (named : b.Named) (ready : b.Ready) :
    b.Executable where
  chooses _ _ there := chooses there (named.enemy?_id there)
  resolves _ _ there := (ready.enemy? there).resolves
  performs _ _ _ there alive minds := performIntent_of_intentSkill? there alive minds
  idles_iff _ _ there alive := performIntent_eq_self_iff there alive (ready.enemy? there)

namespace Session

variable {c : Catalog} {settings : Settings} {seed : UInt64} {deck : List String}
  {foes : List Foe} {b : Battle}

/-- Between any two steps of a battle that has been started, enemies choose what they can do, and do
what they have chosen. -/
theorem executable_run (h : Battle.start c settings seed deck foes = .ok b) :
    ∃ b₀, Battle.build c settings seed deck foes = .ok b₀ ∧
      (∀ calls, Later { battle := b₀ } (run { battle := b } calls)) ∧
      ∀ s, Later { battle := b₀ } s → s.battle.Executable := by
  obtain ⟨b₀, built, later⟩ := later_of_start h
  refine ⟨b₀, built, later, fun s hs => ?_⟩
  have kept : s.battle.Named ∧ s.battle.Ready :=
    hs.invariant (P := fun s => s.battle.Named ∧ s.battle.Ready)
      (fun _ _ step hs => ⟨step.named hs.1, step.ready hs.2⟩) (fun _ hs => hs)
      ⟨Battle.named_of_build built, Battle.ready_of_build built⟩
  exact Battle.executable_of kept.1 kept.2

/-- The slime has chosen to splash: its battle is in order at the start, and a turn later. -/
theorem executable_slime :
    ∃ b, Battle.start Sample.catalog Sample.settings 1 ["strike"] [{ monsterId := "slime" }] =
        .ok b ∧ b.shown = [(.enemy 0, "splash")] ∧ b.Executable ∧
      (run { battle := b } [.endTurn]).battle.Executable := by
  obtain ⟨b, h, _, shown⟩ := exists_start_slime
  obtain ⟨_, _, later, executable⟩ := executable_run h
  exact ⟨b, h, shown, executable _ (later []), executable _ (later [.endTurn])⟩

end Session

end CardBattle
