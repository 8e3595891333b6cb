import CardBattle.Proofs.Bystanders
import CardBattle.Proofs.Falls
import CardBattle.Proofs.LifeCycle

/-!
# CardBattle.Proofs.Telegraph

Enemies do what they have shown. At the end of a turn the living enemies use the skills of their
intents, each once and in battle order, until one of them fells the player.

* `Enemy.Ready`, `Step.ready`: an intent names a skill that its enemy owns.
* `Cast`, `Honours`: skills used, with what follows each; and when they are those shown.
* `enemiesAct_performs`: the enemies act as shown, by induction on who is still to act.
* `Session.telegraphed_run`: so it is at the end of every turn of a started battle.
-/

namespace CardBattle

open Relation

/-! ## Intents -/

/-- The intent of an enemy, if it has one, names a skill that it owns. -/
def Enemy.Ready (e : Enemy) : Prop := e.intent = e.intentSkill?.map fun s => s.skill.id

namespace Battle

def Ready (b : Battle) : Prop := ∀ e ∈ b.enemies, e.Ready

theorem exists_skill_of_isUnlocked {b : Battle} {e : Enemy} {skillId : String}
    (h : b.isUnlocked e skillId = true) :
    ∃ s, e.skill? skillId = some s ∧ s.skill.id = skillId ∧
      Requirement.met s.requirement (Subjects.of b e.fighter.id false) = true := by
  simp only [isUnlocked] at h
  split at h
  · cases h
  · rename_i s hs
    have found := List.find?_some hs
    exact ⟨s, hs, by simpa using found, h⟩

theorem isSome_skill?_of_isUnlocked {b : Battle} {e : Enemy} {skillId : String}
    (h : b.isUnlocked e skillId = true) : (e.skill? skillId).isSome = true := by
  obtain ⟨s, owned, _⟩ := exists_skill_of_isUnlocked h
  exact Option.isSome_of_eq_some owned

/-- A candidate with a weight is a skill that the enemy owns. -/
theorem isSome_skill?_of_candidate {b : Battle} {id : FighterId} {e : Enemy} {c : Candidate}
    {skillId : String} (he : b.enemy? id = some e) (hc : c ∈ b.candidates id)
    (weight : 0 < c.weight) (named : c.skillId = some skillId) :
    (e.skill? skillId).isSome = true := by
  simp only [candidates, he] at hc
  split at hc
  · split at hc
    · obtain ⟨w, _, rfl⟩ := List.mem_map.mp hc
      simp only [finalWeight] at weight named
      split at named
      · cases named
      · cases named
        rename_i eq
        simp only [eq] at weight
        split at weight
        · exact isSome_skill?_of_isUnlocked ‹_›
        · cases weight
    · obtain ⟨s, _, rfl⟩ := List.mem_map.mp hc
      cases named
      simp only at weight
      split at weight
      · exact isSome_skill?_of_isUnlocked ‹_›
      · cases weight
  · cases hc

theorem ready_of_plans {b b' : Battle} (h : b'.enemies.map plans = b.enemies.map plans)
    (hb : b.Ready) : b'.Ready := by
  intro e' he'
  have there : plans e' ∈ b'.enemies.map plans := List.mem_map_of_mem he'
  rw [h] at there
  obtain ⟨e, he, same⟩ := List.mem_map.mp there
  have ready := hb e he
  simp only [plans, Prod.mk.injEq] at same
  simpa only [Enemy.Ready, Enemy.intentSkill?, Enemy.skill?, same.1, same.2] using ready

theorem ready_chooseIntent {b : Battle} (hb : b.Ready) (id : FighterId) :
    (b.chooseIntent id).2.Ready := by
  simp only [chooseIntent]
  split
  · exact hb
  · rename_i e he
    cases id with
    | player => cases he
    | enemy i =>
      intro e' he'
      obtain ⟨k, hk⟩ := List.mem_iff_getElem?.mp he'
      simp only [emit, updateEnemy, List.getElem?_modify, Option.map_eq_map,
        Option.map_eq_some_iff] at hk
      obtain ⟨e₁, he₁, rfl⟩ := hk
      split
      · -- the enemy that has chosen
        rename_i eq
        subst eq
        have same : e₁ = e := Option.some.inj (he₁.symm.trans he)
        rw [same]
        obtain ⟨_, none⟩ | ⟨_, c, _, hc, pos, some⟩ :=
          Candidate.draw_cases (b.candidates (.enemy i)) b.chance
        · rw [none]
          rfl
        · rw [some]
          cases named : c.skillId with
          | none => rfl
          | some skillId =>
            have owned := isSome_skill?_of_candidate he (List.mem_of_getElem? hc) pos named
            obtain ⟨s, hs⟩ := Option.isSome_iff_exists.mp owned
            have found := List.find?_some hs
            simp only [beq_iff_eq] at found
            simp only [Enemy.Ready, Enemy.intentSkill?, Enemy.skill?] at hs ⊢
            rw [hs, Option.map_some, found]
      · exact hb e₁ (List.mem_of_getElem? he₁)

end Battle

theorem Step.ready {b b' : Battle} (h : Step b b') (hb : b.Ready) : b'.Ready := by
  cases h with
  | handover h =>
    rw [Battle.emitAll_eq]
    exact hb
  | stage h =>
    cases h with
    | move h =>
      cases h with
      | @fighter id _ f' _ _ _ =>
        rw [Battle.emitAll_eq]
        exact Battle.ready_of_plans (b.plans_setFighter id f') hb
      | piles _ =>
        rw [Battle.emitAll_eq]
        exact hb
      | gauges _ => exact hb
      | points _ => exact hb
      | enqueue _ => exact hb
      | tick => exact hb
      | remark _ => exact hb
      | choose id => exact Battle.ready_chooseIntent hb id
      | @cast id _ _ _ _ =>
        exact Battle.ready_of_plans (b.plans_updateEnemy id _ fun _ => rfl) hb
    | opening _ => exact hb
    | playerTurn => exact hb
    | sweep =>
      rw [Battle.emitAll_eq]
      exact hb
    | enemyTurn => exact hb
    | ending _ => exact hb

namespace Battle

theorem ready_of_build {c : Catalog} {settings : Settings} {seed : UInt64} {deck : List String}
    {foes : List Foe} {b : Battle} (h : build c settings seed deck foes = .ok b) : b.Ready := by
  obtain ⟨_, enemies, _, _, he, rfl⟩ := build_eq_ok h
  intro e there
  obtain ⟨_, _, _, _, rfl⟩ := mem_enemiesOf he there
  rfl

theorem Ready.intent_eq {b : Battle} (hb : b.Ready) (id : FighterId) :
    (b.enemy? id).bind Enemy.intent = (b.intent? id).map Skill.id := by
  cases id with
  | player => rfl
  | enemy i =>
    simp only [intent?, enemy?]
    cases he : b.enemies[i]? with
    | none => rfl
    | some e =>
      have ready := hb e (List.mem_of_getElem? he)
      simp only [Option.bind_some, Option.map_map]
      exact ready

end Battle

theorem Session.ready_run {c : Catalog} {settings : Settings} {seed : UInt64}
    {deck : List String} {foes : List Foe} {b : Battle}
    (h : Battle.start c settings seed deck foes = .ok b) (calls : List Call) :
    (run { battle := b } calls).battle.Ready :=
  invariant_of_start (P := fun s => s.battle.Ready) (fun _ _ step hs => step.ready hs)
    (fun _ hs => hs) h (fun _ built => Battle.ready_of_build built) calls

/-! ## Skills used -/

namespace Event

def skillUsed? : Event → Option (FighterId × String)
  | .skillUsed id skill => some (id, skill)
  | _ => none

def uses (es : List Event) : List (FighterId × String) := es.filterMap skillUsed?

/-- Events of the course of a skill: they tell neither the turn order nor intents. -/
def IsPlain (e : Event) : Prop := e.topic ≠ .order ∧ e.topic ≠ .intents

theorem IsPlain.skillUsed? {e : Event} (h : e.IsPlain) : e.skillUsed? = none := by
  cases e with
  | skillUsed id skill => exact absurd rfl h.2
  | _ => rfl

theorem isPlain_of_topic {e : Event} {t : Topic} (h : e.topic = t) (order : t ≠ .order)
    (intents : t ≠ .intents) : e.IsPlain := by
  subst h
  exact ⟨order, intents⟩

@[simp] theorem uses_append (es es' : List Event) : uses (es ++ es') = uses es ++ uses es' :=
  List.filterMap_append

theorem uses_eq_nil {es : List Event} (h : ∀ e ∈ es, e.skillUsed? = none) : uses es = [] :=
  List.filterMap_eq_nil_iff.mpr h

end Event

/-- A skill that has been used, with what is told after it: its own course, and what comes before
the next skill. -/
structure Cast where
  enemy : FighterId
  skill : String
  aftermath : List Event

namespace Cast

def face (c : Cast) : FighterId × String := (c.enemy, c.skill)

def told (c : Cast) : List Event := .skillUsed c.enemy c.skill :: c.aftermath

/-- The skill fells the player. -/
def Fatal (c : Cast) : Prop := .player ∈ Event.falls c.aftermath

theorem uses_told {casts : List Cast} (h : ∀ c ∈ casts, ∀ e ∈ c.aftermath, e.IsPlain) :
    Event.uses (casts.flatMap told) = casts.map face := by
  induction casts with
  | nil => rfl
  | cons c cs ih =>
    have after : Event.uses c.aftermath = [] :=
      Event.uses_eq_nil fun e he => (h c List.mem_cons_self e he).skillUsed?
    have rest := ih fun c' hc' => h c' (List.mem_cons_of_mem _ hc')
    rw [List.flatMap_cons, Event.uses_append, rest, List.map_cons]
    simp only [Event.uses, told, List.filterMap_cons, Event.skillUsed?] at after ⊢
    rw [after]
    rfl

end Cast

/-- The skills used are those shown, in their order, up to the first that fells the player. -/
inductive Honours : List (FighterId × String) → List Cast → Prop where
  | done : Honours [] []
  | fatal {c : Cast} {rest : List (FighterId × String)} (h : c.Fatal) :
      Honours (c.face :: rest) [c]
  | next {c : Cast} {rest : List (FighterId × String)} {cs : List Cast} (h : ¬ c.Fatal)
      (more : Honours rest cs) : Honours (c.face :: rest) (c :: cs)

theorem Honours.faces_isPrefix {shown : List (FighterId × String)} {casts : List Cast}
    (h : Honours shown casts) : casts.map Cast.face <+: shown := by
  induction h with
  | done => exact List.prefix_refl _
  | @fatal c rest _ => exact ⟨rest, rfl⟩
  | @next c rest cs _ _ ih => exact List.cons_prefix_cons.mpr ⟨rfl, ih⟩

namespace Battle

/-! ## What is logged -/

/-- Between two battles the log grows by events of one kind. -/
def Logs (P : Event → Prop) (b b' : Battle) : Prop :=
  ∃ es, b'.events.toList = b.events.toList ++ es ∧ ∀ e ∈ es, P e

section

variable {P Q : Event → Prop} {b b₁ b' : Battle}

theorem Logs.refl (b : Battle) : Logs P b b := ⟨[], by simp, nofun⟩

theorem Logs.trans (h : Logs P b b₁) (h' : Logs P b₁ b') : Logs P b b' := by
  obtain ⟨es, events, he⟩ := h
  obtain ⟨es₁, events₁, he₁⟩ := h'
  refine ⟨es ++ es₁, by rw [events₁, events, List.append_assoc], fun e mem => ?_⟩
  rcases List.mem_append.mp mem with mem | mem
  · exact he e mem
  · exact he₁ e mem

theorem Logs.mono (h : Logs P b b') (sub : ∀ e, P e → Q e) : Logs Q b b' := by
  obtain ⟨es, events, he⟩ := h
  exact ⟨es, events, fun e mem => sub e (he e mem)⟩

theorem logs_of_events (h : b'.events = b.events) : Logs P b b' := ⟨[], by simp [h], nofun⟩

theorem logs_emit {e : Event} (h : P e) : Logs P b (b.emit e) := ⟨[e], by simp [emit], by simpa⟩

theorem logs_emitAll {es : List Event} (h : ∀ e ∈ es, P e) : Logs P b (b.emitAll es) :=
  ⟨es, events_emitAll b es, h⟩

theorem logs_foldl {α : Type} {act : Battle → α → Battle} (h : ∀ b a, Logs P b (act b a))
    (as : List α) (b : Battle) : Logs P b (as.foldl act b) := by
  induction as generalizing b with
  | nil => exact .refl b
  | cons a as ih => exact (h b a).trans (ih _)

end

/-- No skill is used. -/
abbrev Idles : Battle → Battle → Prop := Logs fun e => e.skillUsed? = none

end Battle

theorem Deed.plain {b b' : Battle} (h : Deed b b') : Battle.Logs Event.IsPlain b b' := by
  cases h with
  | fighter _ h =>
    exact (Battle.logs_of_events (b.events_setFighter _ _)).trans
      (Battle.logs_emitAll fun e he => Event.isPlain_of_topic (h.topic e he) nofun nofun)
  | piles h =>
    exact (Battle.logs_of_events (b := b) rfl).trans
      (Battle.logs_emitAll fun e he => Event.isPlain_of_topic (h.topic e he) nofun nofun)
  | gauges _ => exact ⟨_, Array.toList_push, by simp [Event.IsPlain, Event.topic]⟩
  | points _ => exact ⟨_, Array.toList_push, by simp [Event.IsPlain, Event.topic]⟩
  | enqueue _ => exact ⟨_, Array.toList_push, by simp [Event.IsPlain, Event.topic]⟩

theorem Deeds.plain {b b' : Battle} (h : Deeds b b') : Battle.Logs Event.IsPlain b b' := by
  induction h with
  | refl => exact .refl b
  | tail _ last ih => exact ih.trans last.plain

theorem Deeds.idles {b b' : Battle} (h : Deeds b b') : b.Idles b' :=
  h.plain.mono fun _ => Event.IsPlain.skillUsed?

namespace Battle

/-! ## Where no skill is used -/

theorem chooseIntent_idles (id : FighterId) (b : Battle) : b.Idles (b.chooseIntent id).2 := by
  simp only [chooseIntent]
  split
  · exact logs_of_events rfl
  · refine Logs.trans (logs_of_events ?_) (logs_emit rfl)
    exact events_updateEnemy _ _ _

theorem enemyRests_idles (b : Battle) (id : FighterId) : b.Idles (b.enemyRests id) := by
  have ended := (endBuffs_deeds id b).idles
  simp only [enemyRests]
  split
  · exact ended.trans (chooseIntent_idles id _)
  · exact ended

theorem checkEnd_idles (b : Battle) : b.Idles b.checkEnd.2 := by
  simp only [checkEnd]
  split
  · exact .refl b
  · split
    · exact .refl b
    · rename_i o _
      exact ⟨_, b.events_ended o, by simp [Event.skillUsed?]⟩

theorem grantCards_idles (n : Nat) (b : Battle) : b.Idles (b.grantCards n) := by
  simp only [grantCards]
  split
  · exact logs_of_events rfl
  · exact (logs_of_events (b := b) rfl).trans (logs_emit rfl)

theorem discardHand_idles (b : Battle) : b.Idles b.discardHand := by
  simp only [discardHand]
  split
  · exact logs_of_events rfl
  · exact (logs_of_events (b := b) rfl).trans (logs_emit rfl)

theorem land_idles (b : Battle) (h : DelayedHit) : b.Idles (b.land h) := by
  have fired : b.Idles (b.emit (.delayedFired h.caster h.damage)) := logs_emit rfl
  have hits : ∀ ts : List FighterId, b.Idles
      ((b.emit (.delayedFired h.caster h.damage)).hurtAll ts h.damage) := fun ts =>
    fired.trans (logs_foldl (fun b t => (hurt_deeds t h.damage b).idles) ts _)
  simp only [land]
  split
  · split
    · exact .refl b
    · split
      · exact hits _
      · exact .refl b
  · split
    · exact hits _
    · exact hits _

theorem fireDelayed_idles (b : Battle) : b.Idles b.fireDelayed :=
  (logs_of_events (b := b) rfl).trans (logs_foldl land_idles _ _)

theorem beginPlayerTurn_idles (b : Battle) : b.Idles b.beginPlayerTurn := by
  have begun : b.Idles b.turnBegun := ⟨_, b.events_turnBegun, by simp [Event.skillUsed?]⟩
  have reset : b.turnBegun.Idles b.turnBegun.resetActionPoints :=
    ⟨_, Array.toList_push, by simp [Event.skillUsed?]⟩
  have started := (startBuffs_deeds .player b.turnBegun.resetActionPoints).idles
  have granted : ∀ (n : Nat) (b : Battle), b.Idles (if n = 0 then b else b.grantCards n) := by
    intro n b
    split
    · exact .refl b
    · exact grantCards_idles n b
  have dealt : ∀ b : Battle, b.Idles (b.drawCards b.settings.handSize).fireDelayed.checkEnd.2 :=
    fun b => (Deeds.idles (.single (drawCards_deed _ b))).trans
      ((fireDelayed_idles _).trans (checkEnd_idles _))
  exact (begun.trans reset).trans (started.trans ((granted _ _).trans (dealt _)))

/-! ## The enemies act -/

/-- The skill that an enemy shows. -/
def face? (b : Battle) (id : FighterId) : Option (FighterId × String) :=
  (b.intent? id).map fun s => (id, s.id)

/-- What the living enemies show, in battle order. -/
def shown (b : Battle) : List (FighterId × String) := b.living.filterMap b.face?

theorem startBuffs_told (id : FighterId) (b : Battle) :
    ∃ kinds : List BuffKind,
      (b.startBuffs id).2.events.toList = b.events.toList ++ kinds.map (.buffExpired id) := by
  simp only [startBuffs]
  split
  · exact ⟨[], by simp⟩
  · exact ⟨_, by rw [emitExpired, events_emitAll, events_setFighter]⟩

theorem isAlive_startBuffs (id t : FighterId) (b : Battle) :
    (b.startBuffs t).2.isAlive id = b.isAlive id := by
  simp only [startBuffs]
  split
  · rfl
  · rename_i f hf
    by_cases eq : id = t
    · subst eq
      simp [isAlive, fighter?_emitExpired, fighter?_setFighter _ hf, hf, Fighter.isAlive]
    · exact isAlive_congr ((fighter?_emitExpired _ _ _).trans (fighter?_setFighter_of_ne b eq _))

/-- What is told when a living enemy acts: the start of its turn, and its skill if it has one. -/
theorem enemyActs_told {b : Battle} {i : Nat} (alive : b.isAlive (.enemy i) = true) :
    ∃ gap rest, (b.enemyActs (.enemy i)).events.toList = b.events.toList ++ (gap ++ rest) ∧
      (∀ e ∈ gap, e.IsPlain) ∧ Event.falls gap = [] ∧
      ((b.intent? (.enemy i) = none ∧ rest = []) ∨
        ∃ skill after, b.intent? (.enemy i) = some skill ∧
          rest = .skillUsed (.enemy i) skill.id :: after ∧ ∀ e ∈ after, e.IsPlain) := by
  obtain ⟨kinds, started⟩ := startBuffs_told (.enemy i) b
  have alive₁ := (isAlive_startBuffs (.enemy i) (.enemy i) b).trans alive
  have intent := (startBuffs_deeds (.enemy i) b).intent? (.enemy i)
  have acts : b.enemyActs (.enemy i) =
      ((b.startBuffs (.enemy i)).2.performIntent (.enemy i)).2 := by
    simp only [enemyActs, alive, alive₁, if_true]
  have plain : ∀ e ∈ kinds.map (Event.buffExpired (.enemy i)), e.IsPlain := by
    intro e he
    obtain ⟨kind, _, rfl⟩ := List.mem_map.mp he
    simp [Event.IsPlain, Event.topic]
  have unharmed := Event.falls_eq_nil (Event.touched?_expired (.enemy i) kinds)
  obtain ⟨none, eq⟩ | ⟨skill, attack, some, eq⟩ :=
    performIntent_eq _ alive₁ (FighterId.enemy_ne_player i)
  · refine ⟨_, [], ?_, plain, unharmed, .inl ⟨intent ▸ none, rfl⟩⟩
    rw [acts, eq, started, List.append_nil]
  · obtain ⟨after, events, course⟩ := (resolveSkill_deeds
      ((b.startBuffs (.enemy i)).2.casting (.enemy i) skill) i skill attack).plain
    refine ⟨_, _, ?_, plain, unharmed, .inr ⟨skill, after, intent ▸ some, rfl, course⟩⟩
    rw [acts, eq, events, casting, emit, Array.toList_push, events_updateEnemy, started]
    simp

/-- Who was alive has fallen if its fall has been told. -/
theorem mem_falls_iff {b b' : Battle} {es : List Event} {id : FighterId} (h : Moves b b')
    (sound : b.Sound) (alive : b.isAlive id = true)
    (events : b'.events.toList = b.events.toList ++ es) :
    id ∈ Event.falls es ↔ b'.isAlive id = false := by
  obtain ⟨es', events', fates⟩ := h.stages.steps.fates sound
  have same : es' = es := List.append_cancel_left (events'.symm.trans events)
  rw [← same, fates.mem_falls]
  simp [alive]

/-- The enemies act as it has been shown, after a beginning that harms nobody. -/
structure Performs (b : Battle) (shown : List (FighterId × String)) (lead : List Event)
    (casts : List Cast) (b' : Battle) : Prop where
  told : b'.events.toList = b.events.toList ++ (lead ++ casts.flatMap Cast.told)
  plain : ∀ e ∈ lead, e.IsPlain
  unharmed : Event.falls lead = []
  aftermath : ∀ c ∈ casts, ∀ e ∈ c.aftermath, e.IsPlain
  honours : Honours shown casts

theorem enemiesAct_performs (ids : List FighterId) (b : Battle) (sound : b.Sound)
    (player : b.isAlive .player = true)
    (foes : ∀ id ∈ ids, (∃ i, id = .enemy i) ∧ b.isAlive id = true) (nodup : ids.Nodup) :
    ∃ lead casts, b.Performs (ids.filterMap b.face?) lead casts (b.enemiesAct ids) := by
  induction ids generalizing b with
  | nil => exact ⟨[], [], by simp [enemiesAct], nofun, rfl, nofun, .done⟩
  | cons id ids ih =>
    obtain ⟨⟨i, rfl⟩, alive⟩ := foes id List.mem_cons_self
    obtain ⟨gap, rest, told, plain, unharmed, what⟩ := enemyActs_told alive
    have moves := enemyActs_moves (.enemy i) b
    have fallen := mem_falls_iff moves sound player told
    have others : ∀ id ∈ ids, (∃ i, id = .enemy i) ∧
        (b.enemyActs (.enemy i)).isAlive id = true := by
      intro id hid
      obtain ⟨⟨j, rfl⟩, alive⟩ := foes id (List.mem_cons_of_mem _ hid)
      have other : FighterId.enemy j ≠ .enemy i := fun eq => (List.nodup_cons.mp nodup).1 (eq ▸ hid)
      have spared := enemyActs_bystander b other (FighterId.enemy_ne_player j)
      exact ⟨⟨j, rfl⟩, (isAlive_congr spared).trans alive⟩
    have faces : (b.enemyActs (.enemy i)).face? = b.face? :=
      funext fun id => by simp only [face?, enemyActs_intent?]
    simp only [enemiesAct]
    split
    · -- the player stands, and the others act
      rename_i stands
      have stands' : .player ∉ Event.falls (gap ++ rest) := by
        rw [fallen]
        simpa [isAlive, fighter?] using stands
      obtain ⟨lead, casts, acts⟩ := ih _ (Steps.sound moves.stages.steps sound) stands others
        (List.nodup_cons.mp nodup).2
      rw [faces] at acts
      obtain ⟨none, rfl⟩ | ⟨skill, after, some, rfl, course⟩ := what
      · refine ⟨gap ++ lead, casts, ?_, List.forall_mem_append.mpr ⟨plain, acts.plain⟩, ?_,
          acts.aftermath, ?_⟩
        · rw [acts.told, told]
          simp
        · rw [Event.falls_append, unharmed, acts.unharmed]
          rfl
        · simpa [face?, none] using acts.honours
      · refine ⟨gap, ⟨.enemy i, skill.id, after ++ lead⟩ :: casts, ?_, plain, unharmed, ?_, ?_⟩
        · rw [acts.told, told]
          simp [Cast.told]
        · rintro c hc
          rcases List.mem_cons.mp hc with rfl | hc
          · exact List.forall_mem_append.mpr ⟨course, acts.plain⟩
          · exact acts.aftermath c hc
        · have spared : ¬ Cast.Fatal ⟨.enemy i, skill.id, after ++ lead⟩ := by
            simp only [Cast.Fatal, Event.falls_append, acts.unharmed, List.append_nil]
            intro fell
            refine stands' ?_
            rw [Event.falls_append]
            exact List.mem_append_right _ fell
          simpa [face?, some, Cast.face] using Honours.next spared acts.honours
    · -- the player has fallen, so nobody acts any more
      rename_i lies
      have lies' : .player ∈ Event.falls (gap ++ rest) := by
        rw [fallen]
        simpa [isAlive, fighter?] using lies
      rw [Event.falls_append, unharmed, List.nil_append] at lies'
      obtain ⟨none, rfl⟩ | ⟨skill, after, some, rfl, course⟩ := what
      · cases lies'
      · refine ⟨gap, [⟨.enemy i, skill.id, after⟩], ?_, plain, unharmed, ?_, ?_⟩
        · rw [told]
          simp [Cast.told]
        · rintro c hc
          rw [List.mem_singleton.mp hc]
          exact course
        · simpa [face?, some, Cast.face] using
            Honours.fatal (c := ⟨.enemy i, skill.id, after⟩) lies'

/-! ## Battle order -/

theorem living_eq (b : Battle) :
    b.living = ((b.enemies.map Enemy.fighter).filter Fighter.isAlive).map Fighter.id := by
  simp [living, List.filter_map, Function.comp_def]

namespace InOrder

variable {b : Battle}

theorem ids_eq (order : b.InOrder) :
    (b.enemies.map Enemy.fighter).map Fighter.id =
      (List.range b.enemies.length).map FighterId.enemy := by
  apply List.ext_getElem?
  intro i
  rw [List.getElem?_map, List.getElem?_map, List.getElem?_map]
  cases he : b.enemies[i]? with
  | none =>
    have beyond := List.getElem?_eq_none_iff.mp he
    rw [List.getElem?_eq_none (by simpa using beyond)]
    rfl
  | some e =>
    have id := order i e.fighter (by simp [fighter?, he])
    obtain ⟨within, _⟩ := List.getElem?_eq_some_iff.mp he
    rw [List.getElem?_range within]
    exact congrArg some id

theorem nodup_living (order : b.InOrder) : b.living.Nodup := by
  have distinct : ((b.enemies.map Enemy.fighter).map Fighter.id).Nodup := by
    rw [order.ids_eq]
    exact List.nodup_range.map fun _ _ eq => FighterId.enemy.inj eq
  rw [living_eq]
  exact distinct.sublist (List.filter_sublist.map _)

theorem of_mem_living (order : b.InOrder) {id : FighterId} (h : id ∈ b.living) :
    (∃ i, id = .enemy i) ∧ b.isAlive id = true := by
  rw [living_eq] at h
  obtain ⟨f, hf, rfl⟩ := List.mem_map.mp h
  obtain ⟨there, alive⟩ := List.mem_filter.mp hf
  obtain ⟨i, hi⟩ := List.mem_iff_getElem?.mp there
  have here : b.fighter? (.enemy i) = some f := by
    rw [← hi, List.getElem?_map]
    rfl
  have id := order i f here
  exact ⟨⟨i, id⟩, by rw [id, isAlive_eq here, alive]⟩

theorem mem_living (order : b.InOrder) {i : Nat} (alive : b.isAlive (.enemy i) = true) :
    .enemy i ∈ b.living := by
  simp only [isAlive] at alive
  split at alive
  · cases alive
  · rename_i f hf
    obtain ⟨e, he, rfl⟩ := Option.map_eq_some_iff.mp hf
    have own := order i e.fighter hf
    rw [← own]
    exact List.mem_map_of_mem (List.mem_filter.mpr ⟨List.mem_of_getElem? he, alive⟩)

end InOrder

theorem Named.nodup_living {b : Battle} (named : b.Named) : b.living.Nodup :=
  named.inOrder.nodup_living

theorem Named.of_mem_living {b : Battle} (named : b.Named) {id : FighterId} (h : id ∈ b.living) :
    (∃ i, id = .enemy i) ∧ b.isAlive id = true := named.inOrder.of_mem_living h

theorem Named.mem_living {b : Battle} (named : b.Named) {i : Nat}
    (alive : b.isAlive (.enemy i) = true) : .enemy i ∈ b.living := named.inOrder.mem_living alive

theorem living_congr {b b' : Battle}
    (h : ∀ i, b'.fighter? (.enemy i) = b.fighter? (.enemy i)) : b'.living = b.living := by
  have same : b'.enemies.map Enemy.fighter = b.enemies.map Enemy.fighter := by
    apply List.ext_getElem?
    intro i
    rw [List.getElem?_map, List.getElem?_map]
    exact h i
  rw [living_eq, living_eq, same]

/-! ## The end of a turn -/

/-- What the events of the end of a turn say of the skills shown before. -/
structure Telegraphed (b : Battle) (es : List Event) : Prop where
  /-- If the player dies at its own turn end, no skill is used. -/
  fallen : (b.endBuffs .player).isAlive .player = false → Event.uses es = []
  honoured : (b.endBuffs .player).isAlive .player = true →
    ∃ lead casts tail, es = lead ++ (casts.flatMap Cast.told ++ tail) ∧
      Event.uses lead = [] ∧ Event.uses tail = [] ∧
      (∀ c ∈ casts, ∀ e ∈ c.aftermath, e.IsPlain) ∧ Honours b.shown casts ∧
      Event.uses es = casts.map Cast.face
  /-- The skills used are the first of those shown. -/
  first : Event.uses es <+: b.shown
  /-- Each enemy shows one skill at most, -/
  once : (b.shown.map Prod.fst).Nodup
  /-- and it is the one that it keeps in mind. -/
  kept : ∀ id, (b.enemy? id).bind Enemy.intent = (b.intent? id).map Skill.id

theorem shown_congr {b b' : Battle} (intents : ∀ id, b'.intent? id = b.intent? id)
    (fighters : ∀ i, b'.fighter? (.enemy i) = b.fighter? (.enemy i)) : b'.shown = b.shown := by
  have faces : b'.face? = b.face? := funext fun id => by simp only [face?, intents]
  rw [shown, faces, living_congr fighters, shown]

theorem shown_discardHand (b : Battle) : (b.discardHand.setPhase .enemyTurn).shown = b.shown := by
  have same : (b.discardHand.setPhase .enemyTurn).enemies = b.enemies := by
    simp only [discardHand]
    split <;> rfl
  refine shown_congr (intent?_congr (congrArg (List.map plans) same)) fun i => ?_
  simp only [fighter?, same]

/-- What precedes the enemy turn touches the player only. -/
theorem shown_enemyTurn (b : Battle) :
    ((b.endBuffs .player).discardHand.setPhase .enemyTurn).shown = b.shown := by
  have rested : (b.endBuffs .player).shown = b.shown :=
    shown_congr (endBuffs_deeds .player b).intent? fun i =>
      fighter?_endBuffs b (FighterId.enemy_ne_player i)
  exact (shown_discardHand _).trans rested

theorem once_shown {b : Battle} (named : b.Named) : (b.shown.map Prod.fst).Nodup := by
  have first : ∀ ids : List FighterId,
      ((ids.filterMap b.face?).map Prod.fst).Sublist ids := by
    intro ids
    induction ids with
    | nil => exact .slnil
    | cons id ids ih =>
      cases shows : b.intent? id with
      | none => simpa [face?, shows] using ih.cons id
      | some s => simpa [face?, shows] using ih.cons_cons id
  exact named.nodup_living.sublist (first _)

theorem runEnemyTurn_performs {b : Battle} (named : b.Named) (sound : b.Sound)
    (player : b.isAlive .player = true) :
    ∃ lead casts b', b.Performs b.shown lead casts b' ∧ b'.Idles b.runEnemyTurn := by
  obtain ⟨lead, casts, performs⟩ := enemiesAct_performs b.living b sound player
    (fun _ => named.of_mem_living) named.nodup_living
  refine ⟨lead, casts, _, performs, ?_⟩
  simp only [runEnemyTurn]
  split
  · exact logs_foldl enemyRests_idles _ _
  · exact .refl _

/-- A battle that has ended while the player stands shows nothing. -/
theorem shown_of_decided {b : Battle} {o : Outcome} (decided : b.decided? = some o)
    (player : b.isAlive .player = true) : b.shown = [] := by
  have spec := b.decided?_spec
  have stands : 0 < b.player.fighter.hp := Fighter.isAlive_iff.mp player
  rw [decided] at spec
  cases o with
  | defeat => simp only at spec; omega
  | victory =>
    have none : b.living = [] := by
      simp only [living, List.map_eq_nil_iff, List.filter_eq_nil_iff, Fighter.isAlive_iff]
      intro e he alive
      have fallen := spec.2 e he
      omega
    rw [shown, none]
    rfl

theorem nextTurn_idles (b : Battle) :
    b.Idles (match b.checkEnd with
      | (true, b) => b
      | (false, b) => b.beginPlayerTurn) := by
  have checked := checkEnd_idles b
  generalize b.checkEnd = r at checked ⊢
  obtain ⟨isOver, b₁⟩ := r
  cases isOver with
  | true => exact checked
  | false => exact checked.trans (beginPlayerTurn_idles b₁)

theorem endPlayerTurn_telegraphed {b : Battle} (named : b.Named) (sound : b.Sound)
    (ready : b.Ready) (phase : b.phase = .playerTurn) :
    ∃ es, b.endPlayerTurn.events.toList = b.events.toList ++ es ∧ b.Telegraphed es := by
  have moves := endBuffs_moves .player b
  have rested : Stages b (b.endBuffs .player).discardHand :=
    moves.stages.tail (discardHand_stage _)
  have phase₁ : (b.endBuffs .player).discardHand.phase = .playerTurn :=
    ((moves.calm.trans (calm_discardHand _)).phase).trans phase
  have player : (b.endBuffs .player).discardHand.isAlive .player =
      (b.endBuffs .player).isAlive .player := isAlive_congr (fighter?_discardHand _)
  obtain ⟨es₁, events₁, idle₁⟩ : b.Idles (b.endBuffs .player).discardHand :=
    (endBuffs_deeds .player b).idles.trans (discardHand_idles _)
  have uses₁ := Event.uses_eq_nil idle₁
  have shows := shown_enemyTurn b
  simp only [endPlayerTurn]
  generalize (b.endBuffs .player).discardHand = b₁ at rested phase₁ player events₁ shows ⊢
  obtain ⟨undecided, eq⟩ | ⟨o, decided, eq⟩ := checkEnd_cases (b := b₁) (by simp [phase₁])
  · -- both sides still stand, so the enemies act
    have stands : b₁.isAlive .player = true := by
      have spec := b₁.decided?_spec
      rw [undecided] at spec
      exact Fighter.isAlive_iff.mpr spec.1
    have turned : Steps b (b₁.setPhase .enemyTurn) := rested.steps.tail (.stage .enemyTurn)
    obtain ⟨lead, casts, b₂, performs, idle⟩ :=
      runEnemyTurn_performs (turned.named named) (turned.sound sound) stands
    rw [shows] at performs
    simp only [eq]
    obtain ⟨tail, ended, unused⟩ := idle.trans (nextTurn_idles _)
    have before : Event.uses (es₁ ++ .phaseChanged .enemyTurn :: lead) = [] := by
      refine Event.uses_eq_nil (List.forall_mem_append.mpr ⟨idle₁, ?_⟩)
      exact List.forall_mem_cons.mpr ⟨rfl, fun e he => (performs.plain e he).skillUsed?⟩
    have after := Event.uses_eq_nil unused
    have uses : Event.uses ((es₁ ++ .phaseChanged .enemyTurn :: lead) ++
        (casts.flatMap Cast.told ++ tail)) = casts.map Cast.face := by
      rw [Event.uses_append (es₁ ++ _), before, Event.uses_append, after,
        Cast.uses_told performs.aftermath]
      simp
    refine ⟨_, ?_, fun lies => ?_, fun _ => ?_, uses ▸ performs.honours.faces_isPrefix,
      once_shown named, ready.intent_eq⟩
    · refine Eq.trans ended ?_
      rw [performs.told, setPhase, emit, Array.toList_push, events₁]
      simp
    · rw [← player, stands] at lies
      cases lies
    · exact ⟨_, casts, tail, rfl, before, after, performs.aftermath, performs.honours, uses⟩
  · -- one side has fallen before the enemies act
    have none : Event.uses (es₁ ++ [.phaseChanged .battleEnd, .battleEnded o]) = [] := by
      rw [Event.uses_append, uses₁]
      rfl
    simp only [eq]
    refine ⟨_, ?_, fun _ => none, fun stands => ?_, none ▸ List.nil_prefix, once_shown named,
      ready.intent_eq⟩
    · rw [events_ended, events₁, List.append_assoc]
    · have nothing : b.shown = [] := by
        rw [← shows]
        exact shown_of_decided decided (player.trans stands)
      exact ⟨_, [], [], (List.append_nil _).symm, none, rfl, by simp, nothing ▸ .done, none⟩

end Battle
namespace Session

/-- However a started battle has gone on, at the end of a turn the enemies use the skills that they
have shown. -/
theorem telegraphed_run {c : Catalog} {settings : Settings} {seed : UInt64} {deck : List String}
    {foes : List Foe} {b : Battle} (h : Battle.start c settings seed deck foes = .ok b)
    (calls : List Call) (turn : (run { battle := b } calls).battle.phase = .playerTurn) :
    ∃ b' es, (run { battle := b } calls).battle.endTurn = .ok b' ∧
      b'.events.toList = (run { battle := b } calls).battle.events.toList ++ es ∧
      (run { battle := b } calls).battle.Telegraphed es := by
  obtain ⟨es, events, telegraphed⟩ := Battle.endPlayerTurn_telegraphed (named_run h calls)
    (sound_run h calls) (ready_run h calls) turn
  refine ⟨_, es, ?_, events, telegraphed⟩
  simp only [Battle.endTurn, turn]

/-- A battle against a slime begins with the player's turn, and the slime shows that it will
splash. -/
theorem exists_start_slime :
    ∃ b, Battle.start Sample.catalog Sample.settings 1 ["strike"] [{ monsterId := "slime" }] =
        .ok b ∧ b.phase = .playerTurn ∧ b.shown = [(.enemy 0, "splash")] := by
  have started : ∃ b, Battle.start Sample.catalog Sample.settings 1 ["strike"]
      [{ monsterId := "slime" }] = .ok b :=
    Battle.exists_start _ _ nofun nofun rfl rfl
  obtain ⟨b, h⟩ := started
  have begun : (Battle.start Sample.catalog Sample.settings 1 ["strike"]
      [{ monsterId := "slime" }]).toOption.map (fun b => (b.phase, b.shown)) =
        some (.playerTurn, [(.enemy 0, "splash")]) := by
    decide +kernel
  rw [h] at begun
  have both := Prod.mk.inj (Option.some.inj begun)
  exact ⟨b, h, both.1, both.2⟩

/-- The slime splashes, as it has shown. -/
theorem telegraphed_slime :
    ∃ b b' es, Battle.start Sample.catalog Sample.settings 1 ["strike"]
        [{ monsterId := "slime" }] = .ok b ∧
      b.phase = .playerTurn ∧ b.shown = [(.enemy 0, "splash")] ∧ b.endTurn = .ok b' ∧
      b'.events.toList = b.events.toList ++ es ∧ b.Telegraphed es := by
  obtain ⟨b, h, phase, shown⟩ := exists_start_slime
  obtain ⟨b', es, ended, told, telegraphed⟩ := telegraphed_run h [] phase
  exact ⟨b, b', es, h, phase, shown, ended, told, telegraphed⟩

end Session
end CardBattle
