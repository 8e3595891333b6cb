import CardBattle.Proofs.Fear
import CardBattle.Proofs.Hooks
import CardBattle.Proofs.Rounding
import Mathlib.Data.List.DropRight

/-!
# CardBattle.Proofs.Accumulation

What fear remembers over a whole battle. It counts the hit points that its owner has lost, as told,
since it became active or since the owner's last turn start, whichever is later. The sum stops at
the largest amount. At the owner's turn end it is read before any tick of that turn end is applied,
and rounded to single precision.

* `Passage.forgets`, `Passage.lossSince`: since when fear counts, and what it counts.
* `Battle.Recalls`, `Passage.Real.recalls`: the invariant, and what one passage makes of it.
* `Battle.Afraid`, `Battle.Chronicle.afraid`: the same along all passages of a chronicle.
* `Battle.Accumulated`, `Battle.Reinflicted`, `Battle.Tallied`: what this says of an active fear, of
  a turn end, and of a passage.
* `Session.fear_accumulates`: every moment of a started battle.
* `Session.fear_rounded`: a sum that its tick misses by one.
-/

namespace CardBattle

open Battle Ledger

/-! ## Passages -/

/-- Whether a fighter has an active fear. -/
def Battle.fears (b : Battle) (id : FighterId) : Bool :=
  (b.fighter? id).any fun f => f.buffs.has .feared

namespace Passage

/-- Fear counts anew from here: its owner's turn starts, or it becomes active. -/
def forgets (id : FighterId) (p : Passage) : Bool :=
  p.hook? = some (.turnStart id) || (!p.before.fears id && p.after.fears id)

/-- The passages after the last one from which fear counts anew. -/
def since (id : FighterId) (ps : List Passage) : List Passage :=
  ps.rtakeWhile fun p => !p.forgets id

/-- The hit points that a fighter has lost since then, as told. -/
def lossSince (id : FighterId) (ps : List Passage) : Int :=
  Event.loss id ((since id ps).flatMap told)

theorem lossSince_concat (id : FighterId) (ps : List Passage) (p : Passage) :
    lossSince id (ps ++ [p]) =
      if p.forgets id then 0 else lossSince id ps + Event.loss id p.told := by
  simp only [lossSince, since, List.rtakeWhile_concat]
  cases p.forgets id with
  | true => rfl
  | false => simp [Event.loss_append]

/-- What a passage does to a fighter: its turn starts, it changes, or it stays as it is. -/
theorem Real.cases {p : Passage} (real : p.Real) (id : FighterId) :
    (p.hook? = some (.turnStart id) ∧ ∃ f, p.before.fighter? id = some f ∧
        p.after.fighter? id = some { f with buffs := f.buffs.turnStart.2.2 } ∧
        Event.loss id p.told = 0) ∨
      p.hook? ≠ some (.turnStart id) ∧
        ((∃ f f', p.before.fighter? id = some f ∧ p.after.fighter? id = some f' ∧
            f.Incident id p.told f') ∨
          p.after.fighter? id = p.before.fighter? id ∧ Event.loss id p.told = 0) := by
  cases real with
  | @incident b j f f' es hf h =>
    refine .inr ⟨nofun, ?_⟩
    simp only [fighter?_emitAll, fighter?_setFighter f' hf]
    by_cases own : id = j
    · subst own
      exact .inl ⟨f, f', hf, if_pos rfl, h⟩
    · have others : ∀ e ∈ es, e.subject? ≠ some id := by
        intro e he same
        rw [h.change.subject e he, Option.some.injEq] at same
        exact own same.symm
      exact .inr ⟨if_neg own, Event.loss_of_subject? others⟩
  | aside _ quiet same =>
    refine .inr ⟨nofun, .inr ⟨same id, Event.loss_of_subject? ?_⟩⟩
    intro e he subject
    exact quiet e he (Event.topic_of_subject? subject)
  | @turnStart b j f hf =>
    simp only [startBuffs_eq hf, fighter?_emitAll, fighter?_setFighter _ hf, Event.loss_expired]
    by_cases own : id = j
    · subst own
      exact .inl ⟨rfl, f, hf, if_pos rfl, trivial⟩
    · refine .inr ⟨?_, .inr ⟨if_neg own, trivial⟩⟩
      intro same
      cases same
      exact own rfl
  | turnEnd => exact .inr ⟨nofun, .inr ⟨rfl, rfl⟩⟩

end Passage

/-! ## The invariant -/

/-- A fighter is sound, and its fear holds `n`. -/
def Battle.Recalls (b : Battle) (id : FighterId) (n : Int) : Prop :=
  ∀ f, b.fighter? id = some f → f.Sound ∧ f.buffs.Recalls n

namespace Passage

variable {p : Passage} {id : FighterId} {n : Int}

theorem fears_of_fighter? {b : Battle} {f : Fighter} (hf : b.fighter? id = some f) :
    b.fears id = f.buffs.has .feared := by
  simp [Battle.fears, hf]

/-- What is told as lost in a passage is what the hit points are fewer afterwards. -/
theorem Real.loss_eq (real : p.Real) (hp : p.before.Recalls id n) {f f' : Fighter}
    (hf : p.before.fighter? id = some f) (hf' : p.after.fighter? id = some f') :
    Event.loss id p.told = max 0 (f.hp - f'.hp) := by
  obtain ⟨_, g, hg, hg', none⟩ | ⟨_, ⟨g, g', hg, hg', incident⟩ | ⟨same, none⟩⟩ := real.cases id
  · rw [hf, Option.some.injEq] at hg
    rw [hf', Option.some.injEq] at hg'
    have same : f'.hp = f.hp := by rw [hg', hg]
    rw [none, same]
    omega
  · rw [hf, Option.some.injEq] at hg
    rw [hf', Option.some.injEq] at hg'
    subst hg hg'
    exact incident.loss_eq (hp f hf).1
  · rw [hf', hf, Option.some.injEq] at same
    rw [none, same]
    omega

theorem Real.loss_nonneg (real : p.Real) (hp : p.before.Recalls id n) :
    0 ≤ Event.loss id p.told := by
  obtain ⟨_, _, _, _, none⟩ | ⟨_, ⟨f, f', hf, hf', _⟩ | ⟨_, none⟩⟩ := real.cases id
  · omega
  · rw [real.loss_eq hp hf hf']
    omega
  · omega

/-- One passage. -/
theorem Real.recalls (real : p.Real) (hp : p.before.Recalls id n) :
    p.after.Recalls id (if p.forgets id then 0 else remembered n (Event.loss id p.told)) := by
  obtain ⟨hook, f, hf, hf', _⟩ | ⟨hook, ⟨f, f', hf, hf', incident⟩ | ⟨same, none⟩⟩ := real.cases id
  · have forgets : p.forgets id = true := by simp [forgets, hook]
    rw [forgets, if_pos rfl]
    intro g hg
    rw [hf', Option.some.injEq] at hg
    subst hg
    have change : f.Change id _ { f with buffs := f.buffs.turnStart.2.2 } := .settle .turnStart
    exact ⟨change.sound (hp f hf).1, f.buffs.recalls_turnStart⟩
  · obtain ⟨sound, recalls⟩ := hp f hf
    have sound' := incident.change.sound sound
    have starts : p.forgets id = (!f.buffs.has .feared && f'.buffs.has .feared) := by
      simp [forgets, hook, fears_of_fighter? hf, fears_of_fighter? hf']
    rw [starts]
    intro g hg
    rw [hf', Option.some.injEq] at hg
    subst hg
    refine ⟨sound', ?_⟩
    cases before : f.buffs.has .feared with
    | true => exact incident.recalls sound.distinct recalls (.inl before)
    | false =>
      -- What was not active may be taken to hold nothing, and nothing is where new fear starts.
      have blank : f'.buffs.Recalls (remembered 0 (Event.loss id p.told)) :=
        incident.recalls sound.distinct (recalls.of_not_has sound.distinct before) (.inr rfl)
      cases after : f'.buffs.has .feared with
      | true =>
        rw [incident.loss_of_fright sound before after] at blank
        exact blank
      | false => exact blank.of_not_has sound'.distinct after
  · have starts : p.forgets id = false := by simp [forgets, hook, fears, same]
    rw [starts, none]
    intro f hf
    exact hp f (same ▸ hf)

/-- The sum that stops at the largest amount, one loss later. -/
theorem remembered_capped {s k : Int} (hs : 0 ≤ s) (hk : 0 ≤ k) :
    remembered (min Amount.greatest s) k = min Amount.greatest (s + k) := by
  simp only [remembered, Amount.saturate, Amount.greatest, Amount.least]
  split <;> omega

end Passage

open Passage

namespace Battle

variable {b b₀ : Battle} {id : FighterId} {ps : List Passage}

/-- What fear holds at a moment that these passages have led to. -/
structure Afraid (b : Battle) (ps : List Passage) (id : FighterId) : Prop where
  nonneg : 0 ≤ lossSince id ps
  recalls : b.Recalls id (min Amount.greatest (lossSince id ps))

theorem Afraid.next {p : Passage} (h : p.before.Afraid ps id) (real : p.Real) :
    p.after.Afraid (ps ++ [p]) id := by
  have loss := real.loss_nonneg h.recalls
  have recalls := real.recalls h.recalls
  rw [remembered_capped h.nonneg loss] at recalls
  have sum := lossSince_concat id ps p
  cases starts : p.forgets id with
  | true =>
    rw [starts, if_pos rfl] at sum recalls
    refine ⟨by omega, ?_⟩
    rw [sum]
    exact recalls
  | false =>
    rw [starts, if_neg Bool.false_ne_true] at sum recalls
    have nonneg := h.nonneg
    refine ⟨by omega, ?_⟩
    rw [sum]
    exact recalls

/-- By induction on the passages. Draining the log changes no fighter. -/
theorem Chronicle.afraid (h : b₀.Chronicle ps b) (start : b₀.Recalls id 0) : b.Afraid ps id := by
  induction h with
  | start => exact ⟨Int.le_refl 0, start⟩
  | next _ real ih => exact ih.next real
  | drained _ ih => exact ⟨ih.nonneg, ih.recalls⟩

/-- Every passage of a chronicle is real, and those before it lead to its begin. -/
theorem Chronicle.split (h : b₀.Chronicle ps b) {qs rs : List Passage} {p : Passage}
    (eq : ps = qs ++ p :: rs) : p.Real ∧ b₀.Chronicle qs p.before := by
  induction h generalizing rs with
  | start => simp at eq
  | @next ps' p' h real ih =>
    rcases List.eq_nil_or_concat rs with rfl | ⟨rs', last, rfl⟩
    · obtain ⟨rfl, one⟩ := List.append_inj' eq rfl
      cases one
      exact ⟨real, h⟩
    · rw [List.concat_eq_append, ← List.cons_append, ← List.append_assoc] at eq
      exact ih (List.append_inj' eq rfl).1
  | drained _ ih => exact ih eq

/-! ## Every moment -/

/-- An active fear holds what its owner has lost, up to the largest amount. -/
def Accumulated (b : Battle) (ps : List Passage) (id : FighterId) : Prop :=
  ∀ f e, b.fighter? id = some f → f.buffs.get? .feared = some e →
    e.data = .feared (min Amount.greatest (lossSince id ps))

/-- What fear brings at a turn end. All ticks are settled in the state in which the turn ends, and
that of fear is the sum as it is there, rounded to single precision. -/
structure Reinflicted (b : Battle) (ps : List Passage) (id : FighterId) (f : Fighter) : Prop where
  settled : b.endBuffs id = ((f.buffs.turnEnd f.maxHp).foldl (applyTick id) b).pruneBuffs id
  ticks : (f.buffs.turnEnd f.maxHp).filter Tick.ofFear =
    if b.fears id = true ∧ 0 < lossSince id ps then
      [.damage .feared (Binary.ofInt (min Amount.greatest (lossSince id ps)))]
    else []
  exact : lossSince id ps ≤ 16777216 →
    (Binary.ofInt (min Amount.greatest (lossSince id ps)) : Single) = .finite (lossSince id ps)

/-- What holds of the fear of a fighter in the passage `p`, after those in `qs`. -/
structure Tallied (qs : List Passage) (p : Passage) (id : FighterId) : Prop where
  before : p.before.Accumulated qs id
  after : p.after.Accumulated (qs ++ [p]) id
  /-- What is told as lost is what the hit points are fewer afterwards: neither what is absorbed or
  guarded, nor healing, counts. -/
  lost : ∀ f f', p.before.fighter? id = some f → p.after.fighter? id = some f' →
    Event.loss id p.told = max 0 (f.hp - f'.hp)
  ended : p.hook? = some (.turnEnd id) → ∀ f, p.before.fighter? id = some f →
    p.before.Reinflicted qs id f

theorem Afraid.accumulated (h : b.Afraid ps id) : b.Accumulated ps id := by
  intro f e hf he
  obtain ⟨sound, recalls⟩ := h.recalls f hf
  obtain ⟨entry, active⟩ := (get?_eq_some_iff sound.distinct).mp he
  have data := recalls e entry
  rwa [active, if_pos rfl] at data

end Battle

/-- Integers of at most 24 bits are singles. -/
theorem Binary.ofInt_eq_of_le {n : Int} (nonneg : 0 ≤ n) (small : n ≤ 16777216) :
    (ofInt n : Single) = .finite n := by
  have bits : (2 : Nat) ^ Format.single.precision = 16777216 := by decide
  rcases Int.lt_or_eq_of_le small with less | rfl
  · refine ofRat_of_isPoint ⟨n, 0, by simp, ?_, by decide, by decide⟩
    rw [bits]
    omega
  · refine ofRat_of_isPoint ⟨1, 24, by norm_num, ?_, by decide, by decide⟩
    rw [bits]
    decide

namespace Battle

variable {b : Battle} {id : FighterId} {ps : List Passage}

theorem Afraid.reinflicted (h : b.Afraid ps id) {f : Fighter} (hf : b.fighter? id = some f) :
    b.Reinflicted ps id f := by
  obtain ⟨sound, recalls⟩ := h.recalls f hf
  have nonneg := h.nonneg
  refine ⟨?_, ?_, ?_⟩
  · simp only [endBuffs, hf]
  · rw [fearTicks_eq recalls sound.distinct, fears_of_fighter? hf]
    have positive : 0 < min Amount.greatest (lossSince id ps) ↔ 0 < lossSince id ps := by
      simp only [Amount.greatest]
      omega
    simp only [positive]
  · intro small
    have capped : min Amount.greatest (lossSince id ps) = lossSince id ps := by
      simp only [Amount.greatest]
      omega
    rw [capped]
    exact Binary.ofInt_eq_of_le nonneg small

theorem Afraid.tallied {p : Passage} (h : p.before.Afraid ps id) (real : p.Real) :
    Tallied ps p id where
  before := h.accumulated
  after := (h.next real).accumulated
  lost _ _ hf hf' := real.loss_eq h.recalls hf hf'
  ended _ _ hf := h.reinflicted hf

theorem recalls_of_build {c : Catalog} {settings : Settings} {seed : UInt64} {deck : List String}
    {foes : List Foe} {b : Battle} (h : build c settings seed deck foes = .ok b)
    (id : FighterId) : b.Recalls id 0 := by
  intro f hf
  obtain ⟨n, rfl, _⟩ := fresh_of_build h hf
  exact ⟨Fighter.sound_fresh id n, nofun⟩

end Battle

namespace Session

/-- A started battle comes about through passages that run the hooks of its turn order and of
nothing else, and that tell its history. Whenever one of them begins or ends, every active fear
holds what its owner has lost since it became active or since the owner's last turn start, up to
the largest amount. At a turn end this becomes the tick of fear. -/
theorem fear_accumulates {c : Catalog} {settings : Settings} {seed : UInt64} {deck : List String}
    {foes : List Foe} {b : Battle} (h : Battle.start c settings seed deck foes = .ok b)
    (calls : List Call) :
    ∃ b₀ ps, Battle.build c settings seed deck foes = .ok b₀ ∧
      Traced b₀ ps (run { battle := b } calls) ∧
      ps.filterMap hooked? =
        (b₀.emit (.phaseChanged .battleStart)).refreshIntents.dawnHooks ++
          hooks { battle := b } calls ∧
      ∀ qs p rs, ps = qs ++ p :: rs → ∀ id, Tallied qs p id := by
  obtain ⟨b₀, built, begun⟩ := Battle.exists_build_of_start h
  rw [begun]
  have quiet : b₀.events = #[] := by
    obtain ⟨_, _, _, _, _, eq⟩ := Battle.build_eq_ok built
    rw [eq]
  obtain ⟨ps, traced, hooked⟩ := exists_chronicle quiet calls
  refine ⟨b₀, ps, built, traced, hooked, ?_⟩
  intro qs p rs eq id
  obtain ⟨real, chronicle⟩ := traced.chronicle.split eq
  have afraid := chronicle.afraid (Battle.recalls_of_build built id)
  exact afraid.tallied real

/-! ## Two battles -/

/-- A card that frightens its caster and then hits it twice. -/
def vertigo (first second : String) : Card :=
  { id := "vertigo", name := "Vertigo", cost := 1
    description := "Become feared. Take " ++ first ++ " and " ++ second ++ " damage."
    slots := .ofList
      [Sample.slot .buffSelf "Feared,0,1,3", Sample.slot .selfDamage first,
        Sample.slot .selfDamage second] }

/-- The card against an enemy that does nothing. -/
def dizzy (first second : String) (maxHp : Int) : Except SetupFault Battle :=
  let dummy : Monster := { id := "dummy", name := "Dummy", hp := 50 }
  Battle.start (.ofLists [vertigo first second] [dummy] [] []) { playerMaxHp := maxHp } 7
    ["vertigo"] [{ monsterId := "dummy" }]

/-- The active fear of the player, its tick, and what has been told of the player. -/
def shown (s : Session) : Option Buff × List Tick × List Event :=
  let f := s.battle.player.fighter
  (f.buffs.get? .feared, (f.buffs.turnEnd f.maxHp).filter Tick.ofFear,
    s.history.filter fun e => e.subject? = some .player)

theorem exists_of_toOption_map {ε α β : Type} {x : Except ε α} {f : α → β} {y : β}
    (h : x.toOption.map f = some y) : ∃ a, x = .ok a ∧ f a = y := by
  cases x with
  | error _ => cases h
  | ok a =>
    cases h
    exact ⟨a, rfl, rfl⟩

/-- Both hits are remembered, and their sum is the tick. -/
theorem fear_accumulates_dizzy :
    ∃ b, dizzy "5" "2" 100 = .ok b ∧
      shown (run { battle := b } [.play 0 none]) =
        (some ⟨.feared 7, 1, 3⟩, [.damage .feared (.finite 7)],
          [.buffApplied .player .feared 1, .damaged .player { lost := 5 },
            .damaged .player { lost := 2 }]) ∧
      ∃ b₀ ps, Traced b₀ ps (run { battle := b } [.play 0 none, .endTurn]) ∧
        ∀ qs p rs, ps = qs ++ p :: rs → Tallied qs p .player := by
  have played : (dizzy "5" "2" 100).toOption.map
      (fun b => shown (run { battle := b } [.play 0 none])) =
        some (some ⟨.feared 7, 1, 3⟩, [.damage .feared (.finite 7)],
          [.buffApplied .player .feared 1, .damaged .player { lost := 5 },
            .damaged .player { lost := 2 }]) := by
    decide +kernel
  obtain ⟨b, started, shows⟩ := exists_of_toOption_map played
  obtain ⟨b₀, ps, _, traced, _, moments⟩ := fear_accumulates started [.play 0 none, .endTurn]
  exact ⟨b, started, shows, b₀, ps, traced, fun qs p rs eq => moments qs p rs eq .player⟩

/-- The player loses 16777217 hit points in two hits, and fear remembers all of them. No single is
equal to this sum: the tick is one point less, and so is what the player loses by it. -/
theorem fear_rounded :
    ∃ b, dizzy "16777216" "1" 40000000 = .ok b ∧
      let s := run { battle := b } [.play 0 none]
      shown s =
        (some ⟨.feared 16777217, 1, 3⟩, [.damage .feared (.finite 16777216)],
          [.buffApplied .player .feared 1, .damaged .player { lost := 16777216 },
            .damaged .player { lost := 1 }]) ∧
      Event.loss .player s.history = 16777217 ∧
      (shown s).2.1 ≠ [.damage .feared (.finite (Event.loss .player s.history))] ∧
      (shown (s.call .endTurn)).2.2 =
        [.buffApplied .player .feared 1, .damaged .player { lost := 16777216 },
          .damaged .player { lost := 1 }, .damaged .player { lost := 16777216 }] := by
  have played : (dizzy "16777216" "1" 40000000).toOption.map
      (fun b =>
        let s := run { battle := b } [.play 0 none]
        (shown s, Event.loss .player s.history, (shown (s.call .endTurn)).2.2)) =
        some
          ((some ⟨.feared 16777217, 1, 3⟩, [.damage .feared (.finite 16777216)],
            [.buffApplied .player .feared 1, .damaged .player { lost := 16777216 },
              .damaged .player { lost := 1 }]),
            16777217,
            [.buffApplied .player .feared 1, .damaged .player { lost := 16777216 },
              .damaged .player { lost := 1 }, .damaged .player { lost := 16777216 }]) := by
    decide +kernel
  obtain ⟨b, started, shows⟩ := exists_of_toOption_map played
  obtain ⟨first, rest⟩ := Prod.mk.inj shows
  obtain ⟨sum, last⟩ := Prod.mk.inj rest
  refine ⟨b, started, first, sum, ?_, last⟩
  rw [sum, congrArg (fun x => x.2.1) first]
  decide

end Session
end CardBattle
