import CardBattle.Proofs.Fighters

/-!
# CardBattle.Proofs.Falls

Who falls stays fallen. The hit that takes the last hit points is told as such, and nothing is told
of the hit points of a fighter that lies.

* `Event.felled?`, `Event.falls`: the fighters that events fell.
* `Battle.Fates`: what events say of life and death between two battles; `Step.fates`,
  `Steps.fates`: they say it of every step and of every chain of them.
* `Session.Later`: what a session can become, within its calls too.
* `Session.fallsOnce_run`: in every session each fighter falls once, if it has no hit points, and
  else never.
-/

namespace CardBattle

open Relation

namespace Event

/-- The fighter that a hit has felled. -/
def felled? : Event → Option FighterId
  | .damaged id report => if report.killed then some id else none
  | _ => none

/-- The fighter whose hit points an event tells of. -/
def touched? : Event → Option FighterId
  | .damaged id _ | .healed id _ => some id
  | _ => none

def falls (es : List Event) : List FighterId := es.filterMap felled?

theorem touched?_of_felled? {e : Event} {id : FighterId} (h : e.felled? = some id) :
    e.touched? = some id := by
  cases e with
  | damaged t report =>
    simp only [felled?] at h
    split at h
    · exact h
    · cases h
  | _ => cases h

theorem subject?_of_touched? {e : Event} {id : FighterId} (h : e.touched? = some id) :
    e.subject? = some id := by
  cases e <;> first | exact h | cases h

@[simp] theorem falls_append (es es' : List Event) : falls (es ++ es') = falls es ++ falls es' :=
  List.filterMap_append

theorem mem_falls {es : List Event} {id : FighterId} :
    id ∈ falls es ↔ ∃ e ∈ es, e.felled? = some id :=
  List.mem_filterMap

theorem falls_eq_nil {es : List Event} (h : ∀ e ∈ es, e.touched? = none) : falls es = [] := by
  rw [falls, List.filterMap_eq_nil_iff]
  intro e he
  cases felled : e.felled? with
  | none => rfl
  | some id =>
    have touched := touched?_of_felled? felled
    rw [h e he] at touched
    cases touched

/-- Once a fighter has fallen, nothing more is told of its hit points. -/
def Final (es : List Event) : Prop :=
  es.Pairwise fun e e' => ∀ id, e.felled? = some id → e'.touched? ≠ some id

theorem final_of_untouched {es : List Event} (h : ∀ e ∈ es, e.touched? = none) : Final es := by
  rw [Final, List.pairwise_iff_forall_sublist]
  intro e e' both id _
  rw [h e' (both.subset (by simp))]
  nofun

theorem touched?_of_topic {es : List Event} (h : ∀ e ∈ es, e.topic ≠ .fighters) :
    ∀ e ∈ es, e.touched? = none := by
  intro e he
  cases touched : e.touched? with
  | none => rfl
  | some id => exact absurd (topic_of_subject? (subject?_of_touched? touched)) (h e he)

theorem touched?_expired (id : FighterId) (kinds : List BuffKind) :
    ∀ e ∈ kinds.map (buffExpired id), e.touched? = none := by
  intro e he
  obtain ⟨kind, _, rfl⟩ := List.mem_map.mp he
  rfl

end Event

namespace Fighter

theorem isAlive_iff {f : Fighter} : f.isAlive = true ↔ 0 < f.hp := by
  simp [isAlive]

theorem isAlive_of_hp {f f' : Fighter} (h : f'.hp = f.hp) : f'.isAlive = f.isAlive := by
  simp only [isAlive, h]

/-- The dead of a sound battle have no hit points at all. -/
theorem Sound.isAlive_eq_false {f : Fighter} (hf : f.Sound) : f.isAlive = false ↔ f.hp = 0 := by
  have bound := hf.hp_nonneg
  simp only [isAlive, decide_eq_false_iff_not]
  omega

variable {id : FighterId} {f f' : Fighter} {es : List Event}

/-- A change either leaves the hit points alone, or it hits or mends the living. -/
theorem Change.touches (h : f.Change id es f') :
    (f'.hp = f.hp ∧ ∀ e ∈ es, e.touched? = none) ∨
      f.isAlive = true ∧
        ((∃ x, f' = (f.takeHit x).2.2 ∧
            es = .damaged id (f.takeHit x).1 :: (f.takeHit x).2.1.map (.buffExpired id)) ∨
          ∃ x, f' = (f.mend x).2 ∧
            es = if 0 < (f.mend x).1 then [.healed id (f.mend x).1] else []) := by
  cases h with
  | hit x alive => exact .inr ⟨alive, .inl ⟨x, rfl, rfl⟩⟩
  | mend x alive => exact .inr ⟨alive, .inr ⟨x, rfl, rfl⟩⟩
  | apply _ => exact .inl ⟨rfl, by simp [Event.touched?]⟩
  | cleanse n => exact .inl ⟨rfl, Event.touched?_expired id _⟩
  | settle _ => exact .inl ⟨rfl, Event.touched?_expired id _⟩

theorem isAlive_mend (hf : f.Sound) (alive : f.isAlive = true) (x : Single) :
    (f.mend x).2.isAlive = true := by
  have restored := restored_mend hf.hp_le_maxHp x
  rw [isAlive_iff] at alive ⊢
  rw [hp_mend]
  omega

/-- A change tells the fall of its fighter when it brings it about, and no other fall. -/
theorem Change.falls (h : f.Change id es f') (hf : f.Sound) :
    Event.falls es = if f.isAlive && !f'.isAlive then [id] else [] := by
  obtain ⟨hp, quiet⟩ | ⟨alive, ⟨x, rfl, rfl⟩ | ⟨x, rfl, rfl⟩⟩ := h.touches
  · rw [Event.falls_eq_nil quiet, isAlive_of_hp hp]
    simp
  · have killed : (f.takeHit x).1.killed = !(f.takeHit x).2.2.isAlive := rfl
    have expired := Event.falls_eq_nil (Event.touched?_expired id (f.takeHit x).2.1)
    rw [Event.falls] at expired ⊢
    rw [List.filterMap_cons, expired, Event.felled?, killed, alive]
    cases (f.takeHit x).2.2.isAlive <;> rfl
  · rw [isAlive_mend hf alive x]
    split <;> simp [Event.falls, Event.felled?]

/-- The dead are not hit and not mended. -/
theorem Change.of_dead (h : f.Change id es f') (dead : f.isAlive = false) :
    f'.isAlive = false ∧ ∀ e ∈ es, e.touched? = none := by
  obtain ⟨hp, quiet⟩ | ⟨alive, _⟩ := h.touches
  · exact ⟨(isAlive_of_hp hp).trans dead, quiet⟩
  · rw [dead] at alive
    cases alive

theorem Change.final (h : f.Change id es f') : Event.Final es := by
  obtain ⟨_, quiet⟩ | ⟨_, ⟨x, _, rfl⟩ | ⟨x, _, rfl⟩⟩ := h.touches
  · exact Event.final_of_untouched quiet
  · have expired := Event.touched?_expired id (f.takeHit x).2.1
    refine List.pairwise_cons.mpr ⟨fun e he j _ => ?_, Event.final_of_untouched expired⟩
    rw [expired e he]
    nofun
  · split <;> simp [Event.Final]

end Fighter

/-! ## Between two battles -/

/-- What the events between two battles say of life and death. -/
structure Battle.Fates (b : Battle) (es : List Event) (b' : Battle) : Prop where
  present : ∀ id, (b'.fighter? id).isSome = (b.fighter? id).isSome
  falls : ∀ id, (Event.falls es).count id = if b.isAlive id && !b'.isAlive id then 1 else 0
  dead : ∀ id, b.isAlive id = false → b'.isAlive id = false ∧ ∀ e ∈ es, e.touched? ≠ some id
  final : Event.Final es

namespace Battle

variable {b b₁ b' : Battle} {es es₁ : List Event} {id : FighterId}

theorem isAlive_eq {f : Fighter} (hf : b.fighter? id = some f) : b.isAlive id = f.isAlive := by
  simp only [isAlive, hf]

theorem isAlive_congr (h : b'.fighter? id = b.fighter? id) : b'.isAlive id = b.isAlive id := by
  simp only [isAlive, h]

/-- Who has fallen was alive before and is dead afterwards. -/
theorem Fates.mem_falls (h : b.Fates es b') :
    id ∈ Event.falls es ↔ b.isAlive id = true ∧ b'.isAlive id = false := by
  rw [← List.count_pos_iff, h.falls id]
  cases b.isAlive id <;> cases b'.isAlive id <;> simp

theorem fates_aside (quiet : ∀ e ∈ es, e.touched? = none)
    (same : ∀ id, b'.fighter? id = b.fighter? id) : b.Fates es b' := by
  refine ⟨fun id => by rw [same], fun id => ?_, fun id dead => ⟨?_, ?_⟩,
    Event.final_of_untouched quiet⟩
  · rw [Event.falls_eq_nil quiet, isAlive_congr (same id)]
    simp
  · rwa [isAlive_congr (same id)]
  · intro e he
    rw [quiet e he]
    nofun

theorem Fates.trans (h : b.Fates es b₁) (h' : b₁.Fates es₁ b') : b.Fates (es ++ es₁) b' := by
  refine ⟨fun id => (h'.present id).trans (h.present id), fun id => ?_, fun id dead => ?_, ?_⟩
  · rw [Event.falls_append, List.count_append, h.falls, h'.falls]
    have early : b.isAlive id = false → b₁.isAlive id = false := fun dead => (h.dead id dead).1
    have late : b₁.isAlive id = false → b'.isAlive id = false := fun dead => (h'.dead id dead).1
    cases alive : b.isAlive id <;> cases alive₁ : b₁.isAlive id <;>
      cases alive' : b'.isAlive id <;> simp_all
  · obtain ⟨dead₁, quiet⟩ := h.dead id dead
    obtain ⟨dead', quiet'⟩ := h'.dead id dead₁
    refine ⟨dead', fun e he => ?_⟩
    rcases List.mem_append.mp he with he | he
    · exact quiet e he
    · exact quiet' e he
  · refine List.pairwise_append.mpr ⟨h.final, h'.final, fun e he e' he' id felled => ?_⟩
    -- The fallen is dead in between.
    have fallen := h.mem_falls.mp (Event.mem_falls.mpr ⟨e, he, felled⟩)
    exact (h'.dead id fallen.2).2 e' he'

theorem Deals.fates (h : b.Deals es b') (sound : b.Sound) : b.Fates es b' := by
  cases h with
  | aside _ quiet same => exact fates_aside (Event.touched?_of_topic quiet) same
  | @change id f f' _ hf h =>
    have after : ∀ j, ((b.setFighter id f').emitAll es).fighter? j =
        if j = id then some f' else b.fighter? j := by
      intro j
      rw [fighter?_emitAll, fighter?_setFighter f' hf]
    have others : ∀ j, j ≠ id → ∀ e ∈ es, e.touched? ≠ some j := by
      intro j hj e he touched
      have subject := h.subject e he
      rw [Event.subject?_of_touched? touched] at subject
      exact hj (Option.some.inj subject)
    refine ⟨fun j => ?_, fun j => ?_, fun j dead => ?_, h.final⟩
    · rw [after j]
      split
      · rename_i eq
        rw [eq, hf]
        rfl
      · rfl
    · rw [h.falls (sound id f hf)]
      by_cases hj : j = id
      · have alive' := isAlive_eq ((after j).trans (if_pos hj))
        rw [alive', hj, isAlive_eq hf]
        split <;> simp
      · rw [isAlive_congr ((after j).trans (if_neg hj))]
        split <;> simp [Ne.symm hj]
    · by_cases hj : j = id
      · rw [hj, isAlive_eq hf] at dead
        obtain ⟨dead', quiet⟩ := h.of_dead dead
        refine ⟨(isAlive_eq ((after j).trans (if_pos hj))).trans dead', fun e he => ?_⟩
        rw [quiet e he]
        nofun
      · exact ⟨(isAlive_congr ((after j).trans (if_neg hj))).trans dead, others j hj⟩

end Battle

theorem Step.fates {b b' : Battle} (h : Step b b') (sound : b.Sound) :
    ∃ es, b'.events.toList = b.events.toList ++ es ∧ b.Fates es b' := by
  obtain ⟨es, deals⟩ := h.deals
  exact ⟨es, deals.events, deals.fates sound⟩

theorem Steps.fates {b b' : Battle} (h : Steps b b') (sound : b.Sound) :
    ∃ es, b'.events.toList = b.events.toList ++ es ∧ b.Fates es b' := by
  induction h with
  | refl => exact ⟨[], by simp, Battle.fates_aside nofun fun _ => rfl⟩
  | @tail b₁ b₂ first last ih =>
    obtain ⟨es, events, fates⟩ := ih
    obtain ⟨es₁, events₁, fates₁⟩ := last.fates (Steps.sound first sound)
    exact ⟨es ++ es₁, by rw [events₁, events, List.append_assoc], fates.trans fates₁⟩

/-! ## Sessions -/

namespace Session

/-- What a session can become: by the steps of the game one after the other, and by calls. -/
inductive Later (s : Session) : Session → Prop where
  | now : Later s s
  | step {t : Session} {b : Battle} (before : Later s t) (h : Step t.battle b) :
      Later s { t with battle := b }
  | call {t : Session} (before : Later s t) (idle : t.Idle) (c : Call) : Later s (t.call c)

theorem later_run {s : Session} (idle : s.Idle) (calls : List Call) : Later s (s.run calls) := by
  have both : (s.run calls).Idle ∧ Later s (s.run calls) :=
    run_induction (P := fun t => t.Idle ∧ Later s t)
      (fun t c h => ⟨idle_call t c h.1, .call h.2 h.1 c⟩) ⟨idle, .now⟩ calls
  exact both.2

theorem Later.trans {s t u : Session} (h : Later s t) (h' : Later t u) : Later s u := by
  induction h' with
  | now => exact h
  | step _ last ih => exact .step ih last
  | call _ idle c ih => exact .call ih idle c

/-- What every step and every draining keeps holds in all that a session becomes. -/
theorem Later.invariant {P : Session → Prop}
    (step : ∀ (s : Session) (b : Battle), Step s.battle b → P s → P { s with battle := b })
    (drain : ∀ s : Session, P s → P (s.call .drain)) {s t : Session} (h : Later s t) (hs : P s) :
    P t := by
  induction h with
  | now => exact hs
  | @step t b _ last ih => exact step t b last ih
  | @call t _ idle c ih =>
    obtain rfl | ⟨b, steps, eq⟩ := call_drain_or_steps idle c
    · exact drain t ih
    · rw [eq]
      exact invariant_steps step steps ih

/-- The history of a session says of life and death what has happened since `b`. -/
structure Fated (b : Battle) (s : Session) : Prop where
  sound : s.battle.Sound
  fates : b.Fates s.history s.battle

theorem fated_step {b : Battle} (s : Session) (b' : Battle) (step : Step s.battle b')
    (h : s.Fated b) : Fated b { s with battle := b' } := by
  obtain ⟨es, events, fates⟩ := step.fates h.sound
  refine ⟨step.sound h.sound, ?_⟩
  rw [history_told events]
  exact h.fates.trans fates

theorem fated_drain {b : Battle} (s : Session) (h : s.Fated b) : (s.call .drain).Fated b := by
  refine ⟨h.sound, ?_⟩
  rw [history_drain]
  exact ⟨h.fates.present, h.fates.falls, h.fates.dead, h.fates.final⟩

/-- The dead stay dead, whatever the session becomes. -/
theorem Later.dead {s t : Session} (h : Later s t) (sound : s.battle.Sound) {id : FighterId}
    {f : Fighter} (hf : s.battle.fighter? id = some f) (hp : f.hp = 0) :
    ∃ f', t.battle.fighter? id = some f' ∧ f'.hp = 0 := by
  -- From here on the history does not matter, so it may as well begin here.
  have fated : t.battle.Sound ∧ ∃ es, s.battle.Fates es t.battle := by
    refine h.invariant
      (P := fun t => t.battle.Sound ∧ ∃ es, s.battle.Fates es t.battle) ?_ ?_
      ⟨sound, [], Battle.fates_aside nofun fun _ => rfl⟩
    · rintro u b step ⟨sound, es, fates⟩
      obtain ⟨es₁, _, fates₁⟩ := step.fates sound
      exact ⟨step.sound sound, _, fates.trans fates₁⟩
    · rintro u ⟨sound, es, fates⟩
      exact ⟨sound, es, fates.present, fates.falls, fates.dead, fates.final⟩
  obtain ⟨sound', es, fates⟩ := fated
  have there := fates.present id
  rw [hf, Option.isSome_some] at there
  obtain ⟨f', hf'⟩ := Option.isSome_iff_exists.mp there
  have fallen := (sound id f hf).isAlive_eq_false.mpr hp
  rw [← Battle.isAlive_eq hf] at fallen
  have lies := (fates.dead id fallen).1
  rw [Battle.isAlive_eq hf'] at lies
  exact ⟨f', hf', (sound' id f' hf').isAlive_eq_false.mp lies⟩

/-- Each fighter has been felled once, if it has no hit points, and else never; after its fall
nothing is told of its hit points, and it never rises. -/
structure FallsOnce (s : Session) : Prop where
  counted : ∀ id f, s.battle.fighter? id = some f →
    (Event.falls s.history).count id = if f.hp = 0 then 1 else 0
  final : Event.Final s.history
  stays : ∀ id f, s.battle.fighter? id = some f → f.hp = 0 →
    ∀ t, Later s t → ∃ f', t.battle.fighter? id = some f' ∧ f'.hp = 0

theorem fallsOnce_of_fated {b : Battle} {s : Session} (h : s.Fated b)
    (fresh : ∀ id f, b.fighter? id = some f → f.isAlive = true) : s.FallsOnce := by
  refine ⟨fun id f hf => ?_, h.fates.final, fun id f hf hp t later => later.dead h.sound hf hp⟩
  have there := h.fates.present id
  rw [hf, Option.isSome_some, eq_comm] at there
  obtain ⟨f₀, hf₀⟩ := Option.isSome_iff_exists.mp there
  have fallen := (h.sound id f hf).isAlive_eq_false
  rw [h.fates.falls id, Battle.isAlive_eq hf₀, fresh id f₀ hf₀, Battle.isAlive_eq hf]
  cases alive : f.isAlive with
  | true =>
    rw [alive] at fallen
    simp [mt fallen.mpr]
  | false => simp [fallen.mp alive]

/-- However a started battle goes on, at any time each fighter has fallen once, if it has no hit
points, and else never, and it stays where it fell. -/
theorem fallsOnce_run {c : Catalog} {settings : Settings} {seed : UInt64} {deck : List String}
    {foes : List Foe} {b : Battle} (h : Battle.start c settings seed deck foes = .ok b)
    (calls : List Call) {s : Session} (later : Later (run { battle := b } calls) s) :
    s.FallsOnce := by
  obtain ⟨b₀, built, _⟩ := Battle.exists_build_of_start h
  have silent : b₀.events = #[] := by
    obtain ⟨_, _, _, _, _, eq⟩ := Battle.build_eq_ok built
    rw [eq]
  have fated : (run { battle := b } calls).Fated b₀ := by
    refine invariant_of_start fated_step fated_drain h ?_ calls
    intro b₁ built₁
    rw [built, Except.ok.injEq] at built₁
    subst built₁
    refine ⟨Battle.sound_of_build built, ?_⟩
    rw [history, silent]
    exact Battle.fates_aside (by simp) fun _ => rfl
  refine fallsOnce_of_fated (later.invariant fated_step fated_drain fated) fun id f hf => ?_
  obtain ⟨n, rfl, _⟩ := Battle.fresh_of_build built hf
  rw [Fighter.isAlive_iff, Fighter.fresh]
  simp only
  omega

/-- A play and the end of the turn in the sample battle. -/
theorem fallsOnce_sample :
    ∃ b, Battle.start Sample.catalog Sample.settings 1 ["strike", "mend", "echo"]
        [{ monsterId := "slime", hp := some 6 }] = .ok b ∧
      (run { battle := b } [.play 1 none, .endTurn]).FallsOnce := by
  obtain ⟨b, h⟩ := exists_start_sample
  exact ⟨b, h, fallsOnce_run h [.play 1 none, .endTurn] .now⟩

end Session
end CardBattle
