import CardBattle.Content.Sample
import CardBattle.Proofs.Dealing

/-!
# CardBattle.Proofs.Session

A battle in use. A session is a battle with the events that were drained from it; the calls of
its user may be accepted or rejected. What every step of the game keeps and what draining does
not touch holds after every sequence of calls (`invariant_run`).

* `Session.call`, `Session.run`: one call, and a sequence of calls.
* `Session.run?`: the same with numbers of 32 bits for the copies, which can run out.
* `Session.history`: all events since the battle was built, drained or not.
* `Session.Idle`: between two calls no copy is in play.
* `exists_build_of_start`: a started battle comes from a built one by `begin`.
-/

namespace CardBattle

open Relation

/-- What the user of a battle can do. -/
inductive Call where
  | play (copy : Nat) (target : Option FighterId)
  | endTurn
  | drain

structure Session where
  /-- The events drained so far. -/
  drained : List Event := []
  battle : Battle

namespace Session

def history (s : Session) : List Event := s.drained ++ s.battle.events.toList

/-- One call. A rejected one changes nothing. -/
def call (s : Session) : Call → Session
  | .play copy target =>
    match s.battle.play copy target with
    | .error _ => s
    | .ok b => { s with battle := b }
  | .endTurn =>
    match s.battle.endTurn with
    | .error _ => s
    | .ok b => { s with battle := b }
  | .drain =>
    { drained := s.drained ++ s.battle.drain.1.toList, battle := s.battle.drain.2 }

def run (s : Session) (calls : List Call) : Session := calls.foldl call s

@[simp] theorem run_cons (s : Session) (c : Call) (cs : List Call) :
    s.run (c :: cs) = (s.call c).run cs := rfl

@[simp] theorem history_drain (s : Session) : (s.call .drain).history = s.history := by
  simp [call, history, Battle.drain]

/-- What is told to the log is told to the history. -/
theorem history_told {s : Session} {b : Battle} {es : List Event}
    (h : b.events.toList = s.battle.events.toList ++ es) :
    history { s with battle := b } = s.history ++ es := by
  simp only [history, h, List.append_assoc]

/-- A call is rejected, it drains, or it is accepted by the battle. -/
theorem call_cases (s : Session) (c : Call) :
    s.call c = s ∨ c = .drain ∨
      ∃ b, s.call c = { s with battle := b } ∧
        ((∃ copy target, s.battle.play copy target = .ok b) ∨ s.battle.endTurn = .ok b) := by
  cases c with
  | drain => exact .inr (.inl rfl)
  | play copy target =>
    simp only [call]
    cases h : s.battle.play copy target with
    | error e => exact .inl rfl
    | ok b => exact .inr (.inr ⟨b, rfl, .inl ⟨copy, target, h⟩⟩)
  | endTurn =>
    simp only [call]
    cases s.battle.endTurn with
    | error e => exact .inl rfl
    | ok b => exact .inr (.inr ⟨b, rfl, .inr rfl⟩)

/-- What every call keeps is kept by a sequence of calls. -/
theorem run_induction {P : Session → Prop} (h : ∀ s c, P s → P (s.call c)) {s : Session}
    (hs : P s) (calls : List Call) : P (s.run calls) := by
  induction calls generalizing s with
  | nil => exact hs
  | cons c cs ih => exact ih (h s c hs)

end Session

namespace Battle

/-! ## Calls as chains of steps -/

theorem phase_of_play {b b' : Battle} {copy : Nat} {target : Option FighterId}
    (h : b.play copy target = .ok b') : b.phase = .playerTurn := by
  simp only [play] at h
  split at h
  · cases h
  · cases h
  · cases h
  · assumption

/-- What an accepted play has passed, and what it comes down to. -/
theorem exists_of_play {b b' : Battle} {copy : Nat} {target : Option FighterId}
    (h : b.play copy target = .ok b') :
    ∃ place c piles, b.player.piles.beginPlay? copy = some (place, c, piles) ∧
      c.cost ≤ b.player.actionPoints ∧ b' = b.playCopy place c piles c.cost target := by
  simp only [play] at h
  split at h
  · cases h
  · cases h
  · cases h
  · split at h
    · cases h
    · rename_i place c piles hp
      split at h
      · cases h
      · rename_i hc
        refine ⟨place, c, piles, hp, by omega, ?_⟩
        split at h
        · cases h; rfl
        · split at h
          · cases h; rfl
          · cases h

theorem endTurn_eq_ok {b b' : Battle} (h : b.endTurn = .ok b') :
    b.phase = .playerTurn ∧ b' = b.endPlayerTurn := by
  simp only [endTurn] at h
  split at h
  · cases h
  · cases h
  · cases h
  · rename_i hp
    cases h
    exact ⟨hp, rfl⟩

/-- The state in which a played copy begins to resolve. -/
def opened (b : Battle) (c : CardCopy) (piles : Piles) (target : Option FighterId) : Battle :=
  let player := { b.player with piles }
  { b with player := (player.spendAction? c.cost).getD player }.emitActionPoints.emit
    (.cardPlayed c.id c.card.id target)

theorem playCopy_eq (b : Battle) (place : Nat) (c : CardCopy) (piles : Piles)
    (target : Option FighterId) :
    b.playCopy place c piles c.cost target =
      ((b.opened c piles target).resolveCard { copy := c.id, card := c.card, place }
        target).2.finishPlay := rfl

theorem opened_steps {b : Battle} {copy place : Nat} {c : CardCopy} {piles : Piles}
    (target : Option FighterId) (idle : b.player.piles.inPlay = none)
    (hp : b.player.piles.beginPlay? copy = some (place, c, piles))
    (hc : c.cost ≤ b.player.actionPoints) : Steps b (b.opened c piles target) := by
  have paid : b.player.spendAction? c.cost =
      some { b.player with actionPoints := b.player.actionPoints - max 0 c.cost } := by
    simp only [Player.spendAction?, Int.not_lt.mpr hc, if_false]
  have paid' : ({ b.player with piles } : Player).spendAction? c.cost =
      some { b.player with piles, actionPoints := b.player.actionPoints - max 0 c.cost } := by
    simp only [Player.spendAction?, Int.not_lt.mpr hc, if_false]
  have first := Step.stage (.move (Move.points (b := b) (.spend paid)))
  have second := Step.handover
    (b := { b with
      player := { b.player with
        actionPoints := b.player.actionPoints - max 0 c.cost } }.emitActionPoints)
    (.beginPlay target idle hp)
  simp only [opened, paid', Option.getD_some]
  exact .head first (.single second)

theorem finishPlay_steps (b : Battle) : Steps b b.finishPlay := by
  simp only [finishPlay, Piles.finishPlay]
  cases hc : b.player.piles.inPlay with
  | none => exact (checkEnd_stages b).steps
  | some c => exact .head (.handover (.finishPlay hc)) (checkEnd_stages _).steps

theorem play_steps {b b' : Battle} {copy : Nat} {target : Option FighterId}
    (idle : b.player.piles.inPlay = none) (h : b.play copy target = .ok b') : Steps b b' := by
  obtain ⟨place, c, piles, hp, hc, eq⟩ := exists_of_play h
  rw [eq, playCopy_eq]
  exact (opened_steps target idle hp hc).trans
    ((resolveCard_moves _ target _).stages.steps.trans (finishPlay_steps _))

/-! ## The copy in play -/

theorem player_checkEnd (b : Battle) : b.checkEnd.2.player = b.player := by
  simp only [checkEnd]
  split
  · rfl
  · split <;> rfl

theorem piles_opened (b : Battle) (c : CardCopy) (piles : Piles) (target : Option FighterId) :
    (b.opened c piles target).player.piles = piles := by
  have kept : ∀ p q : Player, p.spendAction? c.cost = some q → q.piles = p.piles := by
    intro p q h
    obtain ⟨_, eq⟩ := (Player.Budget.spend h).exists_eq
    rw [eq]
  simp only [opened, emit, emitActionPoints]
  cases h : ({ b.player with piles } : Player).spendAction? c.cost with
  | none => rfl
  | some q => exact kept _ q h

theorem piles_finishPlay {b : Battle} {c : CardCopy} (h : b.player.piles.inPlay = some c) :
    b.finishPlay.player.piles =
      { b.player.piles with
        inPlay := none, discardPile := b.player.piles.discardPile ++ [c] } := by
  simp only [finishPlay, Piles.finishPlay, h, player_checkEnd]
  rfl

/-- An accepted play leaves the played copy on top of the discard pile. -/
theorem discarded_of_play {b b' : Battle} {copy : Nat} {target : Option FighterId}
    (h : b.play copy target = .ok b') :
    b'.player.piles.inPlay = none ∧
      ∃ c ∈ b.player.piles.hand, c.id = copy ∧
        b'.player.piles.discardPile.getLast?.map CardCopy.pair = some c.pair := by
  obtain ⟨place, c, piles, hp, _, eq⟩ := exists_of_play h
  obtain ⟨held, id, begun⟩ := Piles.beginPlay?_spec hp
  have inPlay : piles.inPlay = some c := by rw [begun]
  have resolved := (resolveCard_moves { copy := c.id, card := c.card, place } target
    (b.opened c piles target)).stages.inPlay
  rw [piles_opened, inPlay] at resolved
  obtain ⟨d, hd, same⟩ := Option.map_eq_some_iff.mp resolved
  rw [eq, playCopy_eq, piles_finishPlay hd]
  exact ⟨rfl, c, List.mem_of_getElem? held, id, by simp [same]⟩

/-! ## The start -/

theorem exists_build_of_start {c : Catalog} {settings : Settings} {seed : UInt64}
    {deck : List String} {foes : List Foe} {b : Battle}
    (h : start c settings seed deck foes = .ok b) :
    ∃ b₀, build c settings seed deck foes = .ok b₀ ∧ b = b₀.begin := by
  simp only [start] at h
  cases hb : build c settings seed deck foes with
  | error e => rw [hb] at h; cases h
  | ok b₀ =>
    rw [hb, Except.map, Except.ok.injEq] at h
    exact ⟨b₀, rfl, h.symm⟩

/-- What a built battle consists of. -/
theorem build_eq_ok {c : Catalog} {settings : Settings} {seed : UInt64} {deck : List String}
    {foes : List Foe} {b : Battle} (h : build c settings seed deck foes = .ok b) :
    ∃ cards enemies, foes ≠ [] ∧ c.cardsOf deck = .ok cards ∧ c.enemiesOf 0 foes = .ok enemies ∧
      b =
        { settings
          player :=
            .fresh settings.playerMaxHp
              ((Piles.ofCards cards).shuffleDrawPile (Chance.Stream.ofSeed seed)).1 settings
          enemies
          chance := ((Piles.ofCards cards).shuffleDrawPile (Chance.Stream.ofSeed seed)).2
          pool := c.pool } := by
  simp only [build] at h
  cases hd : deck.isEmpty with
  | true => simp [hd] at h
  | false =>
    cases hf : foes.isEmpty with
    | true => simp [hd, hf] at h
    | false =>
      cases hc : c.cardsOf deck with
      | error e => simp [hd, hf, hc] at h
      | ok cards =>
        cases he : c.enemiesOf 0 foes with
        | error e => simp [hd, hf, hc, he] at h
        | ok enemies =>
          simp only [hd, hf, hc, he, Bool.false_eq_true, if_false, Except.ok.injEq] at h
          exact ⟨cards, enemies, by simpa using hf, rfl, rfl, h.symm⟩

/-- The deck and the enemies must be known and not empty; nothing else can fail. -/
theorem exists_start {c : Catalog} {deck : List String} {foes : List Foe} {cards : List Card}
    {enemies : List Enemy} (settings : Settings) (seed : UInt64) (hd : deck ≠ [])
    (hf : foes ≠ []) (hc : c.cardsOf deck = .ok cards) (he : c.enemiesOf 0 foes = .ok enemies) :
    ∃ b, start c settings seed deck foes = .ok b := by
  have hd' : deck.isEmpty = false := by simpa using hd
  have hf' : foes.isEmpty = false := by simpa using hf
  simp only [start, build, hd', hf', hc, he, Bool.false_eq_true, if_false]
  exact ⟨_, rfl⟩

theorem phase_of_build {c : Catalog} {settings : Settings} {seed : UInt64} {deck : List String}
    {foes : List Foe} {b : Battle} (h : build c settings seed deck foes = .ok b) :
    b.phase = .battleStart := by
  obtain ⟨_, _, _, _, _, eq⟩ := build_eq_ok h
  rw [eq]

end Battle

/-! ## Invariants -/

namespace Session

/-- No copy is in play, as it is between two calls. -/
def Idle (s : Session) : Prop := s.battle.player.piles.inPlay = none

theorem idle_call (s : Session) (c : Call) (h : s.Idle) : (s.call c).Idle := by
  obtain same | rfl | ⟨b, accepted, ⟨copy, target, played⟩ | ended⟩ := s.call_cases c
  · rw [same]
    exact h
  · exact h
  · rw [accepted]
    exact (Battle.discarded_of_play played).1
  · rw [accepted]
    have kept := (Battle.endPlayerTurn_stages s.battle).inPlay
    rw [← (Battle.endTurn_eq_ok ended).2, show s.battle.player.piles.inPlay = none from h] at kept
    exact Option.map_eq_none_iff.mp kept

theorem idle_run {s : Session} (h : s.Idle) (calls : List Call) : (s.run calls).Idle :=
  run_induction idle_call h calls

theorem idle_start {c : Catalog} {settings : Settings} {seed : UInt64} {deck : List String}
    {foes : List Foe} {b : Battle} (h : Battle.start c settings seed deck foes = .ok b) :
    Idle { battle := b } := by
  obtain ⟨b₀, hb, begun⟩ := Battle.exists_build_of_start h
  obtain ⟨_, _, _, _, _, built⟩ := Battle.build_eq_ok hb
  have kept := (Battle.begin_stages (Battle.phase_of_build hb)).inPlay
  rw [← begun, built] at kept
  exact Option.map_eq_none_iff.mp kept

theorem call_drain_or_steps {s : Session} (idle : s.Idle) (c : Call) :
    c = .drain ∨ ∃ b, Steps s.battle b ∧ s.call c = { s with battle := b } := by
  obtain same | drain | ⟨b, accepted, ⟨copy, target, played⟩ | ended⟩ := s.call_cases c
  · exact .inr ⟨s.battle, .refl, same⟩
  · exact .inl drain
  · exact .inr ⟨b, Battle.play_steps idle played, accepted⟩
  · have stages := Battle.endPlayerTurn_stages s.battle
    rw [← (Battle.endTurn_eq_ok ended).2] at stages
    exact .inr ⟨b, stages.steps, accepted⟩

variable {P : Session → Prop}

theorem invariant_steps
    (step : ∀ (s : Session) (b : Battle), Step s.battle b → P s → P { s with battle := b })
    {s : Session} {b : Battle} (h : Steps s.battle b) (hs : P s) : P { s with battle := b } := by
  induction h with
  | refl => exact hs
  | @tail b₁ b₂ _ last ih => exact step { s with battle := b₁ } b₂ last ih

/-- What every step and every draining keeps holds after all calls. -/
theorem invariant_run
    (step : ∀ (s : Session) (b : Battle), Step s.battle b → P s → P { s with battle := b })
    (drain : ∀ s : Session, P s → P (s.call .drain)) {s : Session} (idle : s.Idle) (hs : P s)
    (calls : List Call) : P (s.run calls) := by
  induction calls generalizing s with
  | nil => exact hs
  | cons c cs ih =>
    refine ih (idle_call s c idle) ?_
    obtain rfl | ⟨b, hb, hc⟩ := call_drain_or_steps idle c
    · exact drain s hs
    · rw [hc]
      exact invariant_steps step hb hs

/-- An invariant of the battle as it is built holds after all calls. -/
theorem invariant_of_start
    (step : ∀ (s : Session) (b : Battle), Step s.battle b → P s → P { s with battle := b })
    (drain : ∀ s : Session, P s → P (s.call .drain)) {c : Catalog} {settings : Settings}
    {seed : UInt64} {deck : List String} {foes : List Foe} {b : Battle}
    (h : Battle.start c settings seed deck foes = .ok b)
    (built : ∀ b₀, Battle.build c settings seed deck foes = .ok b₀ → P { battle := b₀ })
    (calls : List Call) : P (Session.run { battle := b } calls) := by
  obtain ⟨b₀, hb, eq⟩ := Battle.exists_build_of_start h
  have begun : Stages b₀ b := by
    rw [eq]
    exact Battle.begin_stages (Battle.phase_of_build hb)
  exact invariant_run step drain (idle_start h)
    (invariant_steps (s := { battle := b₀ }) step begun.steps (built b₀ hb)) calls

/-- A battle of the sample content: three cards against a slime. -/
theorem exists_start_sample :
    ∃ b, Battle.start Sample.catalog Sample.settings 1 ["strike", "mend", "echo"]
      [{ monsterId := "slime", hp := some 6 }] = .ok b :=
  Battle.exists_start _ _ nofun nofun rfl rfl

end Session
end CardBattle
