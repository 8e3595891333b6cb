import CardBattle.Proofs.Fighters

/-!
# CardBattle.Proofs.LifeCycle

The course of a battle. Between two calls it is the player's turn and both sides stand, or the
battle is over and stays as it is. The events that tell phases, turns and the outcome spell the
same course.

* `Battle.Calm`: nothing of the turn order happens. Moves are calm (`Moves.calm`), so the turn
  order is left to `checkEnd`, `beginPlayerTurn` and `endPlayerTurn`.
* `Battle.Course`: the state at rest together with the milestones told so far; `course_begin`,
  `course_play` and `course_endTurn` are its steps.
* `Battle.Advances`: a number of turns has begun. The number of a turn has 32 bits, while
  `Session.turns` counts all the turns that have been told.
* `lifeCycle_run`: the life cycle after every sequence of calls.
-/

namespace CardBattle

open Relation

namespace Event

/-- The events that tell the turn order. -/
def milestones (es : List Event) : List Event := es.filter fun e => e.topic = .order

def phase? : Event → Option Phase
  | .phaseChanged p => some p
  | _ => none

def turn? : Event → Option UInt32
  | .turnStarted n => some n
  | _ => none

def outcome? : Event → Option Outcome
  | .battleEnded o => some o
  | _ => none

theorem milestones_eq_nil {es : List Event} {t : Topic} (h : ∀ e ∈ es, e.topic = t)
    (ht : t ≠ .order) : milestones es = [] := by
  simp only [milestones, List.filter_eq_nil_iff, decide_eq_true_eq]
  intro e he
  rw [h e he]
  exact ht

@[simp] theorem milestones_append (es fs : List Event) :
    milestones (es ++ fs) = milestones es ++ milestones fs := List.filter_append ..

theorem of_topic_ne_order {e : Event} (h : e.topic ≠ .order) :
    e.phase? = none ∧ e.turn? = none ∧ e.outcome? = none := by
  cases e <;> first | exact ⟨rfl, rfl, rfl⟩ | exact absurd rfl h

/-- What only milestones tell is told by the milestones. -/
theorem filterMap_milestones {α : Type} {f : Event → Option α}
    (h : ∀ e, e.topic ≠ .order → f e = none) (es : List Event) :
    (milestones es).filterMap f = es.filterMap f := by
  induction es with
  | nil => rfl
  | cons e es ih =>
    simp only [milestones, List.filter_cons] at ih ⊢
    split
    · simp only [List.filterMap_cons, ih]
    · rename_i hm
      simp only [List.filterMap_cons, h e (by simpa using hm), ih]

theorem phases_milestones (es : List Event) :
    (milestones es).filterMap phase? = es.filterMap phase? :=
  filterMap_milestones (fun _ h => (of_topic_ne_order h).1) es

theorem turns_milestones (es : List Event) :
    (milestones es).filterMap turn? = es.filterMap turn? :=
  filterMap_milestones (fun _ h => (of_topic_ne_order h).2.1) es

theorem outcomes_milestones (es : List Event) :
    (milestones es).filterMap outcome? = es.filterMap outcome? :=
  filterMap_milestones (fun _ h => (of_topic_ne_order h).2.2) es

end Event

open Event

namespace Battle

/-! ## Calm -/

/-- What happens between two states tells the given milestones. -/
def Told (b : Battle) (ms : List Event) (b' : Battle) : Prop :=
  ∃ es, b'.events.toList = b.events.toList ++ es ∧ milestones es = ms

theorem Told.trans {b b₁ b₂ : Battle} {ms ns : List Event} (h : b.Told ms b₁)
    (h' : b₁.Told ns b₂) : b.Told (ms ++ ns) b₂ := by
  obtain ⟨es, he, hm⟩ := h
  obtain ⟨fs, hf, hn⟩ := h'
  exact ⟨es ++ fs, by rw [hf, he, List.append_assoc], by rw [milestones_append, hm, hn]⟩

theorem told_emit (b : Battle) (e : Event) : b.Told (milestones [e]) (b.emit e) :=
  ⟨[e], by simp [emit], rfl⟩

theorem told_emitAll (b : Battle) (es : List Event) : b.Told (milestones es) (b.emitAll es) :=
  ⟨es, events_emitAll b es, rfl⟩

/-- Nothing of the turn order happens. -/
structure Calm (b b' : Battle) : Prop where
  phase : b'.phase = b.phase
  turn : b'.turn = b.turn
  outcome : b'.outcome = b.outcome
  told : b.Told [] b'

theorem Calm.refl (b : Battle) : b.Calm b := ⟨rfl, rfl, rfl, [], by simp, rfl⟩

theorem Calm.trans {b b₁ b₂ : Battle} (h : b.Calm b₁) (h' : b₁.Calm b₂) : b.Calm b₂ :=
  ⟨h'.phase.trans h.phase, h'.turn.trans h.turn, h'.outcome.trans h.outcome,
    h.told.trans h'.told⟩

theorem calm_emitAll (b : Battle) {es : List Event} (h : milestones es = []) :
    b.Calm (b.emitAll es) := by
  have told := told_emitAll b es
  rw [h] at told
  exact ⟨by rw [emitAll_eq], by rw [emitAll_eq], by rw [emitAll_eq], told⟩

theorem calm_emit (b : Battle) {e : Event} (h : decide (e.topic = .order) = false) :
    b.Calm (b.emit e) := by
  have silent : milestones [e] = [] := by simp [milestones, h]
  exact b.calm_emitAll silent

theorem calm_setFighter (b : Battle) (id : FighterId) (f : Fighter) :
    b.Calm (b.setFighter id f) := by
  obtain ⟨_, _, eq⟩ := b.exists_setFighter_eq id f
  rw [eq]
  exact ⟨rfl, rfl, rfl, [], (List.append_nil _).symm, rfl⟩

theorem calm_updateEnemy (b : Battle) (id : FighterId) (g : Enemy → Enemy) :
    b.Calm (b.updateEnemy id g) := by
  obtain ⟨_, eq⟩ := b.exists_updateEnemy_eq id g
  rw [eq]
  exact ⟨rfl, rfl, rfl, [], (List.append_nil _).symm, rfl⟩

theorem calm_setPiles (b : Battle) (p : Piles) (s : Chance.Stream) : b.Calm (b.setPiles p s) :=
  ⟨rfl, rfl, rfl, [], by simp [setPiles], rfl⟩

end Battle

theorem Move.calm {b b' : Battle} (h : Move b b') : b.Calm b' := by
  cases h with
  | fighter _ h =>
    have silent := milestones_eq_nil h.topic (by decide)
    exact (b.calm_setFighter _ _).trans (Battle.calm_emitAll _ silent)
  | piles h =>
    have silent := milestones_eq_nil h.topic (by decide)
    exact (b.calm_setPiles _ _).trans (Battle.calm_emitAll _ silent)
  | gauges shifts =>
    exact ⟨rfl, rfl, rfl, _, Array.toList_push, rfl⟩
  | points h => exact ⟨rfl, rfl, rfl, _, Array.toList_push, rfl⟩
  | enqueue _ => exact ⟨rfl, rfl, rfl, _, Array.toList_push, rfl⟩
  | tick => exact ⟨rfl, rfl, rfl, [], (List.append_nil _).symm, rfl⟩
  | @remark e he =>
    refine b.calm_emit ?_
    rw [he]
    rfl
  | choose id =>
    simp only [Battle.chooseIntent]
    split
    · exact ⟨rfl, rfl, rfl, [], (List.append_nil _).symm, rfl⟩
    · refine Battle.Calm.trans ?_ (Battle.calm_emit _ rfl)
      exact (b.calm_setPiles b.player.piles _).trans (Battle.calm_updateEnemy _ id _)
  | cast _ _ => exact (b.calm_updateEnemy _ _).trans (Battle.calm_emit _ rfl)

theorem Moves.calm {b b' : Battle} (h : Moves b b') : b.Calm b' := by
  induction h with
  | refl => exact .refl b
  | tail _ last ih => exact ih.trans last.calm

namespace Battle

/-! ## The turn order -/

/-- The milestones of a battle that has just ended. -/
def closing (o : Outcome) : List Event := [.phaseChanged .battleEnd, .battleEnded o]

/-- The milestones up to a player turn, after a number of full rounds. -/
def script : Nat → List Event
  | 0 => [.phaseChanged .battleStart, .phaseChanged .playerTurn, .turnStarted 1]
  | n + 1 =>
    script n ++
      [.phaseChanged .enemyTurn, .phaseChanged .playerTurn, .turnStarted (UInt32.ofNat (n + 2))]

theorem phases_script (n : Nat) :
    (script n).filterMap phase? =
      .battleStart :: .playerTurn :: (List.replicate n [.enemyTurn, .playerTurn]).flatten := by
  induction n with
  | zero => rfl
  | succ n ih =>
    rw [script, List.filterMap_append, ih, List.replicate_succ', List.flatten_append]
    rfl

theorem turns_script (n : Nat) :
    (script n).filterMap turn? = (List.range' 1 (n + 1)).map UInt32.ofNat := by
  induction n with
  | zero => rfl
  | succ n ih =>
    have concat := List.range'_1_concat (s := 1) (n := n + 1)
    rw [script, List.filterMap_append, ih, concat, List.map_append, Nat.add_comm 1 (n + 1)]
    rfl

theorem outcomes_script (n : Nat) : (script n).filterMap outcome? = [] := by
  induction n with
  | zero => rfl
  | succ n ih =>
    rw [script, List.filterMap_append, ih]
    rfl

/-- A battle at rest, with all the milestones told so far. -/
inductive Course (b : Battle) : List Event → Prop where
  | contested {n : Nat} (turn : b.turn = UInt32.ofNat (n + 1)) (phase : b.phase = .playerTurn)
      (outcome : b.outcome = none) (undecided : b.decided? = none) : Course b (script n)
  | finished {n : Nat} {o : Outcome} {es : List Event} (turn : b.turn = UInt32.ofNat (n + 1))
      (phase : b.phase = .battleEnd) (outcome : b.outcome = some o)
      (decided : b.decided? = some o) (entered : es = [] ∨ es = [.phaseChanged .enemyTurn]) :
      Course b (script n ++ (es ++ closing o))

theorem decided?_eq (b : Battle) :
    b.decided? =
      if b.player.fighter.hp ≤ 0 then some .defeat
      else if ∀ e ∈ b.enemies, e.fighter.hp ≤ 0 then some .victory
      else none := by
  simp [decided?, livingCount, Fighter.isAlive]

/-- What an undecided, a lost and a won battle look like. -/
theorem decided?_spec (b : Battle) :
    match b.decided? with
    | none => 0 < b.player.fighter.hp ∧ ∃ e ∈ b.enemies, 0 < e.fighter.hp
    | some .defeat => b.player.fighter.hp ≤ 0
    | some .victory => 0 < b.player.fighter.hp ∧ ∀ e ∈ b.enemies, e.fighter.hp ≤ 0 := by
  rw [decided?_eq]
  by_cases fallen : b.player.fighter.hp ≤ 0
  · simp only [fallen, if_true]
  · have alive : 0 < b.player.fighter.hp := by omega
    by_cases cleared : ∀ e ∈ b.enemies, e.fighter.hp ≤ 0
    · simp only [fallen, if_false, if_pos cleared]
      exact ⟨alive, cleared⟩
    · simp only [fallen, if_false, if_neg cleared]
      refine ⟨alive, ?_⟩
      simpa using cleared

theorem told_ended (o : Outcome) (b : Battle) : b.Told (closing o) (b.ended o) :=
  ⟨closing o, b.events_ended o, rfl⟩

/-- What calmly follows a player turn is at rest after the end check. -/
theorem course_checkEnd {b b' : Battle} {n : Nat} (turn : b.turn = UInt32.ofNat (n + 1))
    (phase : b.phase = .playerTurn) (outcome : b.outcome = none) (h : b.Calm b') :
    ∃ ms, b.Told ms b'.checkEnd.2 ∧ Course b'.checkEnd.2 (script n ++ ms) := by
  have phase' : b'.phase = .playerTurn := h.phase.trans phase
  have turn' : b'.turn = UInt32.ofNat (n + 1) := h.turn.trans turn
  obtain ⟨hd, eq⟩ | ⟨o, hd, eq⟩ := checkEnd_cases (b := b') (by rw [phase']; decide)
  · refine ⟨[], ?_, ?_⟩
    · rw [eq]; exact h.told
    · rw [eq, List.append_nil]
      exact .contested turn' phase' (h.outcome.trans outcome) hd
  · refine ⟨closing o, ?_, ?_⟩
    · rw [eq]; exact h.told.trans (told_ended o b')
    · have course : Course (b'.ended o) (script n ++ ([] ++ closing o)) :=
        .finished turn' rfl rfl hd (.inl rfl)
      rw [eq]
      exact course

theorem told_turnBegun (b : Battle) :
    b.Told [.phaseChanged .playerTurn, .turnStarted (b.turn + 1)] b.turnBegun :=
  ⟨_, b.events_turnBegun, rfl⟩

/-- The next player turn, of a battle that is not over. -/
theorem course_beginPlayerTurn {b : Battle} (outcome : b.outcome = none) {n : Nat}
    (turn : b.turn = UInt32.ofNat n) :
    ∃ ms,
      b.Told (.phaseChanged .playerTurn :: .turnStarted (UInt32.ofNat (n + 1)) :: ms)
        b.beginPlayerTurn ∧
      Course b.beginPlayerTurn (script n ++ ms) := by
  have next : b.turn + 1 = UInt32.ofNat (n + 1) := by rw [turn, UInt32.ofNat_add]; rfl
  obtain ⟨b₁, moves, eq⟩ := beginPlayerTurn_moves b
  obtain ⟨ms, told, course⟩ := course_checkEnd (b := b.turnBegun) (n := n) next rfl outcome
    moves.calm
  refine ⟨ms, ?_, ?_⟩
  · rw [eq]
    have all := (told_turnBegun b).trans told
    rw [next] at all
    exact all
  · rw [eq]; exact course

theorem course_begin {b : Battle} (turn : b.turn = 0) (outcome : b.outcome = none)
    (silent : b.events = #[]) : Course b.begin (milestones b.begin.events.toList) := by
  let b₁ := (b.emit (.phaseChanged .battleStart)).refreshIntents
  have calm : (b.emit (.phaseChanged .battleStart)).Calm b₁ := (refreshIntents_moves _).calm
  obtain ⟨ms, told, course⟩ := course_beginPlayerTurn (b := b₁) (n := 0)
    (calm.outcome.trans outcome) (calm.turn.trans turn)
  obtain ⟨es, he, hm⟩ := ((told_emit b (.phaseChanged .battleStart)).trans calm.told).trans told
  rw [silent, Array.toList_empty, List.nil_append] at he
  have eq : milestones b.begin.events.toList = script 0 ++ ms := by
    have : b.begin = b₁.beginPlayerTurn := rfl
    rw [this, he, hm]
    rfl
  rw [eq]
  exact course

theorem calm_opened (b : Battle) (c : CardCopy) (piles : Piles) (target : Option FighterId) :
    b.Calm (b.opened c piles target) :=
  ⟨rfl, rfl, rfl, _, by simp only [opened, emit, emitActionPoints, Array.toList_push,
    List.append_assoc]; rfl, rfl⟩

theorem finishPlay_calm (b : Battle) : ∃ b₁, b.Calm b₁ ∧ b.finishPlay = b₁.checkEnd.2 := by
  simp only [finishPlay, Piles.finishPlay]
  cases b.player.piles.inPlay with
  | none => exact ⟨b, .refl b, rfl⟩
  | some c => exact ⟨_, (b.calm_setPiles _ b.chance).trans (calm_emit _ rfl), rfl⟩

theorem course_play {b b' : Battle} {copy : Nat} {target : Option FighterId}
    (h : b.play copy target = .ok b') {ms : List Event} (hb : Course b ms) :
    ∃ ns, b.Told ns b' ∧ Course b' (ms ++ ns) := by
  have phase := phase_of_play h
  obtain ⟨place, c, piles, _, _, eq⟩ := exists_of_play h
  cases hb with
  | contested turn _ outcome _ =>
    obtain ⟨b₁, calm, finished⟩ := finishPlay_calm
      ((b.opened c piles target).resolveCard { copy := c.id, card := c.card, place } target).2
    have resolved := (resolveCard_moves { copy := c.id, card := c.card, place } target
      (b.opened c piles target)).calm
    rw [eq, playCopy_eq, finished]
    exact course_checkEnd turn phase outcome
      ((calm_opened b c piles target).trans (resolved.trans calm))
  | finished _ ended _ _ _ => rw [phase] at ended; cases ended

theorem calm_discardHand (b : Battle) : b.Calm b.discardHand := by
  simp only [discardHand]
  split
  · exact b.calm_setPiles _ b.chance
  · exact (b.calm_setPiles _ b.chance).trans (calm_emit _ rfl)

/-- The rest of a round: the player's turn ends, the enemies act, the next turn begins. The
battle may be over on the way. -/
theorem course_endPlayerTurn {b : Battle} {n : Nat} (turn : b.turn = UInt32.ofNat (n + 1))
    (phase : b.phase = .playerTurn) (outcome : b.outcome = none) :
    ∃ ns, b.Told ns b.endPlayerTurn ∧ Course b.endPlayerTurn (script n ++ ns) := by
  have rested : b.Calm (b.endBuffs .player).discardHand :=
    (endBuffs_moves .player b).calm.trans (calm_discardHand _)
  simp only [endPlayerTurn]
  generalize (b.endBuffs .player).discardHand = b₁ at rested ⊢
  have turn₁ : b₁.turn = UInt32.ofNat (n + 1) := rested.turn.trans turn
  have phase₁ : b₁.phase = .playerTurn := rested.phase.trans phase
  have outcome₁ : b₁.outcome = none := rested.outcome.trans outcome
  obtain ⟨_, eq⟩ | ⟨o, decided, eq⟩ := checkEnd_cases (b := b₁) (by rw [phase₁]; decide)
  · -- both sides still stand, so the enemies act
    have told₁ : b₁.Told [.phaseChanged .enemyTurn] (b₁.setPhase .enemyTurn) :=
      told_emit { b₁ with phase := .enemyTurn } (.phaseChanged .enemyTurn)
    have fought := (runEnemyTurn_moves (b₁.setPhase .enemyTurn)).calm
    simp only [eq]
    generalize (b₁.setPhase .enemyTurn).runEnemyTurn = b₂ at fought ⊢
    have told := (rested.told.trans told₁).trans fought.told
    have phase₂ : b₂.phase = .enemyTurn := fought.phase
    have turn₂ : b₂.turn = UInt32.ofNat (n + 1) := fought.turn.trans turn₁
    obtain ⟨_, eq'⟩ | ⟨o, decided, eq'⟩ := checkEnd_cases (b := b₂) (by rw [phase₂]; decide)
    · obtain ⟨ms, more, course⟩ := course_beginPlayerTurn (fought.outcome.trans outcome₁) turn₂
      have joined := List.append_assoc (script n)
        [.phaseChanged .enemyTurn, .phaseChanged .playerTurn,
          .turnStarted (UInt32.ofNat (n + 2))] ms
      rw [script, joined] at course
      simp only [eq']
      exact ⟨_, told.trans more, course⟩
    · simp only [eq']
      exact ⟨_, told.trans (told_ended o b₂), .finished turn₂ rfl rfl decided (.inr rfl)⟩
  · simp only [eq]
    exact ⟨_, rested.told.trans (told_ended o b₁), .finished turn₁ rfl rfl decided (.inl rfl)⟩

theorem course_endTurn {b b' : Battle} (h : b.endTurn = .ok b') {ms : List Event}
    (hb : Course b ms) : ∃ ns, b.Told ns b' ∧ Course b' (ms ++ ns) := by
  obtain ⟨phase, eq⟩ := endTurn_eq_ok h
  cases hb with
  | contested turn _ outcome _ =>
    rw [eq]
    exact course_endPlayerTurn turn phase outcome
  | finished _ ended _ _ _ => rw [phase] at ended; cases ended

/-! ## Turns that begin -/

/-- Between two battles a number of turns has begun: the number of the turn has grown by it, and as
many turns are told. -/
structure Advances (n : Nat) (b b' : Battle) : Prop where
  turn : b'.turn = b.turn + UInt32.ofNat n
  told : ∃ ms, b.Told ms b' ∧ (ms.filterMap turn?).length = n

theorem Advances.trans {m n : Nat} {b b₁ b' : Battle} (h : Advances m b b₁)
    (h' : Advances n b₁ b') :
    Advances (m + n) b b' := by
  obtain ⟨turn, ms, told, rfl⟩ := h
  obtain ⟨turn', ns, told', rfl⟩ := h'
  refine ⟨?_, ms ++ ns, told.trans told', by rw [List.filterMap_append, List.length_append]⟩
  rw [turn', turn, UInt32.ofNat_add, UInt32.add_assoc]

theorem Calm.advances {b b' : Battle} (h : b.Calm b') : Advances 0 b b' :=
  ⟨h.turn.trans (UInt32.add_zero b.turn).symm, [], h.told, rfl⟩

theorem setPhase_advances (phase : Phase) (b : Battle) : Advances 0 b (b.setPhase phase) :=
  ⟨(UInt32.add_zero b.turn).symm, _, told_emit { b with phase } (.phaseChanged phase), rfl⟩

theorem ended_advances (o : Outcome) (b : Battle) : Advances 0 b (b.ended o) :=
  ⟨(UInt32.add_zero b.turn).symm, _, told_ended o b, rfl⟩

theorem checkEnd_advances (b : Battle) : Advances 0 b b.checkEnd.2 := by
  simp only [checkEnd]
  split
  · exact (Calm.refl b).advances
  · split
    · exact (Calm.refl b).advances
    · exact ended_advances _ b

theorem beginPlayerTurn_advances (b : Battle) : Advances 1 b b.beginPlayerTurn := by
  obtain ⟨b₁, moves, eq⟩ := beginPlayerTurn_moves b
  have first : Advances 1 b b.turnBegun := ⟨rfl, _, told_turnBegun b, rfl⟩
  rw [eq]
  exact (first.trans moves.calm.advances).trans (checkEnd_advances b₁)

theorem play_advances {b b' : Battle} {copy : Nat} {target : Option FighterId}
    (h : b.play copy target = .ok b') : Advances 0 b b' := by
  obtain ⟨place, c, piles, _, _, eq⟩ := exists_of_play h
  obtain ⟨b₁, calm, finished⟩ := finishPlay_calm
    ((b.opened c piles target).resolveCard { copy := c.id, card := c.card, place } target).2
  have resolved := (resolveCard_moves { copy := c.id, card := c.card, place } target
    (b.opened c piles target)).calm
  rw [eq, playCopy_eq, finished]
  exact ((calm_opened b c piles target).trans (resolved.trans calm)).advances.trans
    (checkEnd_advances b₁)

end Battle

/-! ## Sessions -/

namespace Session

def Course (s : Session) : Prop := s.battle.Course (milestones s.history)

theorem course_told {s : Session} {b : Battle} {ms : List Event}
    (h : ∃ ns, s.battle.Told ns b ∧ b.Course (ms ++ ns)) (hs : milestones s.history = ms) :
    Course { s with battle := b } := by
  obtain ⟨ns, ⟨es, told, rfl⟩, course⟩ := h
  simp only [Course, history_told told, milestones_append, hs]
  exact course

theorem course_call (s : Session) (c : Call) (hs : s.Course) : (s.call c).Course := by
  obtain same | rfl | ⟨b, accepted, ⟨copy, target, played⟩ | ended⟩ := s.call_cases c
  · rw [same]
    exact hs
  · have kept : (s.call .drain).battle.Course (milestones s.history) := by
      simp only [Course] at hs
      generalize milestones s.history = ms at hs
      cases hs with
      | contested turn phase outcome undecided => exact .contested turn phase outcome undecided
      | finished turn phase outcome decided entered =>
        exact .finished turn phase outcome decided entered
    simp only [Course, history_drain]
    exact kept
  · rw [accepted]
    exact course_told (Battle.course_play played hs) rfl
  · rw [accepted]
    exact course_told (Battle.course_endTurn ended hs) rfl

/-- A call after the end is rejected, unless it drains. -/
theorem over_call {s : Session} (h : s.battle.phase = .battleEnd) (c : Call) :
    ∃ es, (s.call c).battle = { s.battle with events := es } ∧
      (s.call c).history = s.history := by
  obtain same | rfl | ⟨b, _, ⟨copy, target, played⟩ | ended⟩ := s.call_cases c
  · rw [same]
    exact ⟨s.battle.events, rfl, rfl⟩
  · exact ⟨#[], rfl, history_drain s⟩
  · have running := Battle.phase_of_play played
    rw [h] at running
    cases running
  · have running := (Battle.endTurn_eq_ok ended).1
    rw [h] at running
    cases running

theorem over_run {s : Session} (h : s.battle.phase = .battleEnd) (calls : List Call) :
    ∃ es, (s.run calls).battle = { s.battle with events := es } ∧
      (s.run calls).history = s.history := by
  induction calls generalizing s with
  | nil => exact ⟨s.battle.events, rfl, rfl⟩
  | cons c cs ih =>
    obtain ⟨es, battle, history⟩ := over_call h c
    have ended : (s.call c).battle.phase = .battleEnd := by rw [battle]; exact h
    obtain ⟨fs, battle', history'⟩ := ih ended
    exact ⟨fs, by rw [run_cons, battle', battle], by rw [run_cons, history', history]⟩

/-- The player turns that have begun, however many they are. -/
def turns (s : Session) : Nat := (s.history.filterMap turn?).length

theorem turns_of_advances {s : Session} {b : Battle} {n : Nat} (h : Battle.Advances n s.battle b) :
    turns { s with battle := b } = s.turns + n := by
  obtain ⟨_, ms, ⟨es, told, rfl⟩, rfl⟩ := h
  rw [turns, history_told told, List.filterMap_append, List.length_append, turns_milestones, turns]

/-- Numbers told in order are those of the turns. -/
theorem numbers_of_told {s : Session} {n : Nat}
    (told : s.history.filterMap turn? = (List.range' 1 n).map UInt32.ofNat) : s.turns = n := by
  rw [turns, told, List.length_map, List.length_range']

/-- Numbers that 32 bits hold are the numbers themselves. -/
theorem map_toNat_ofNat {n : Nat} (fits : n < 4294967296) :
    ((List.range' 1 n).map UInt32.ofNat).map UInt32.toNat = List.range' 1 n := by
  rw [List.map_map]
  refine (List.map_congr_left fun i hi => ?_).trans (List.map_id _)
  have bound := (List.mem_range'_1.mp hi).2
  have small : i < 4294967296 := by omega
  exact UInt32.toNat_ofNat_of_lt' small

/-- The life cycle of a battle, seen between two calls. -/
structure LifeCycle (s : Session) : Prop where
  phase : s.battle.phase = .playerTurn ∨ s.battle.phase = .battleEnd
  outcome : s.battle.outcome.isSome = true ↔ s.battle.phase = .battleEnd
  contested : s.battle.phase = .playerTurn →
    0 < s.battle.player.fighter.hp ∧ ∃ e ∈ s.battle.enemies, 0 < e.fighter.hp
  defeat : s.battle.outcome = some .defeat ↔
    s.battle.phase = .battleEnd ∧ s.battle.player.fighter.hp = 0
  victory : s.battle.outcome = some .victory ↔
    s.battle.phase = .battleEnd ∧ 0 < s.battle.player.fighter.hp ∧
      ∀ e ∈ s.battle.enemies, e.fighter.hp = 0
  /-- After the end only the log can change, by being drained. -/
  final : s.battle.phase = .battleEnd → ∀ calls, ∃ es,
    (s.run calls).battle = { s.battle with events := es } ∧ (s.run calls).history = s.history
  phases : ∃ rounds, ∃ ending ∈
      (if s.battle.phase = .battleEnd then [[.battleEnd], [.enemyTurn, .battleEnd]] else [[]]),
    s.history.filterMap phase? =
      [.battleStart, .playerTurn] ++ (List.replicate rounds [.enemyTurn, .playerTurn]).flatten ++
        ending
  outcomes : s.history.filterMap outcome? = s.battle.outcome.toList
  /-- The turn numbers that are told, and the number of the battle, in 32 bits. -/
  numbers : s.history.filterMap turn? = (List.range' 1 s.turns).map UInt32.ofNat
  turn : s.battle.turn = UInt32.ofNat s.turns
  /-- As long as 32 bits hold the number of turns, they are numbered without a gap. -/
  turns : s.turns < 4294967296 →
    (s.history.filterMap turn?).map UInt32.toNat = List.range' 1 s.battle.turn.toNat

/-- The numbers of the turns, and that of the battle, are the same count. -/
theorem Course.numbers {s : Session} (h : s.Course) :
    s.history.filterMap turn? = (List.range' 1 s.turns).map UInt32.ofNat ∧
      s.battle.turn = UInt32.ofNat s.turns := by
  have counted : ∃ n, s.battle.turn = UInt32.ofNat n ∧
      s.history.filterMap turn? = (List.range' 1 n).map UInt32.ofNat := by
    simp only [Course] at h
    rw [← turns_milestones]
    generalize milestones s.history = ms at h
    cases h with
    | contested turn _ _ _ => exact ⟨_, turn, Battle.turns_script _⟩
    | @finished n o es turn _ _ _ entered =>
      have none : (es ++ Battle.closing o).filterMap turn? = [] := by
        obtain rfl | rfl := entered <;> rfl
      refine ⟨_, turn, ?_⟩
      rw [List.filterMap_append, Battle.turns_script, none, List.append_nil]
  obtain ⟨n, turn, told⟩ := counted
  rw [numbers_of_told told]
  exact ⟨told, turn⟩

theorem Course.lifeCycle {s : Session} (h : s.Course) (sound : s.battle.Sound) :
    s.LifeCycle := by
  have player : 0 ≤ s.battle.player.fighter.hp := (sound .player _ rfl).hp_nonneg
  have enemies : ∀ e ∈ s.battle.enemies, 0 ≤ e.fighter.hp := by
    intro e he
    obtain ⟨i, hi⟩ := List.mem_iff_getElem?.mp he
    exact (sound (.enemy i) e.fighter (by simp [Battle.fighter?, hi])).hp_nonneg
  obtain ⟨numbers, number⟩ := h.numbers
  have plain : s.turns < 4294967296 →
      (s.history.filterMap turn?).map UInt32.toNat = List.range' 1 s.battle.turn.toNat := by
    intro fits
    rw [numbers, map_toNat_ofNat fits, number, UInt32.toNat_ofNat_of_lt' fits]
  have spec := s.battle.decided?_spec
  simp only [Course] at h
  generalize hm : milestones s.history = ms at h
  cases h with
  | @contested n turn phase outcome undecided =>
    rw [undecided] at spec
    refine ⟨.inl phase, ?_, fun _ => spec, ?_, ?_, ?_, ?_, ?_, numbers, number, plain⟩
    · simp [outcome, phase]
    · simp [outcome, phase]
    · simp [outcome, phase]
    · intro ended
      rw [phase] at ended
      cases ended
    · refine ⟨n, [], by simp [phase], ?_⟩
      rw [← phases_milestones, hm, Battle.phases_script, List.append_nil]
      rfl
    · rw [← outcomes_milestones, hm, Battle.outcomes_script, outcome]
      rfl
  | @finished n o es turn phase outcome decided entered =>
    rw [decided] at spec
    refine ⟨.inr phase, ?_, ?_, ?_, ?_, fun _ => over_run phase, ?_, ?_, numbers, number, plain⟩
    · simp [outcome, phase]
    · intro running
      rw [phase] at running
      cases running
    · cases o with
      | defeat => simp [outcome, phase, Int.le_antisymm spec player]
      | victory => simp [outcome, Int.ne_of_gt spec.1]
    · cases o with
      | defeat => simp [outcome, Int.not_lt.mpr spec]
      | victory =>
        have cleared := fun e he => Int.le_antisymm (spec.2 e he) (enemies e he)
        simpa [outcome, phase, spec.1] using cleared
    · refine ⟨n, es.filterMap phase? ++ [.battleEnd], ?_, ?_⟩
      · obtain rfl | rfl := entered
        · simp [phase]
        · simp [phase, phase?]
      · rw [← phases_milestones, hm, List.filterMap_append, Battle.phases_script,
          List.filterMap_append]
        rfl
    · rw [← outcomes_milestones, hm, List.filterMap_append, Battle.outcomes_script, outcome]
      obtain rfl | rfl := entered <;> rfl

theorem course_start {c : Catalog} {settings : Settings} {seed : UInt64} {deck : List String}
    {foes : List Foe} {b : Battle} (h : Battle.start c settings seed deck foes = .ok b) :
    Course { battle := b } := by
  obtain ⟨b₀, hb, eq⟩ := Battle.exists_build_of_start h
  obtain ⟨_, _, _, _, _, built⟩ := Battle.build_eq_ok hb
  have course := Battle.course_begin (b := b₀) (by rw [built]) (by rw [built]) (by rw [built])
  simp only [Course, history, List.nil_append, eq]
  exact course

theorem lifeCycle_run {c : Catalog} {settings : Settings} {seed : UInt64} {deck : List String}
    {foes : List Foe} {b : Battle} (h : Battle.start c settings seed deck foes = .ok b)
    (calls : List Call) : (run { battle := b } calls).LifeCycle :=
  (run_induction course_call (course_start h) calls).lifeCycle (sound_run h calls)

/-- The slime falls to the first play; the end of the turn is rejected. -/
theorem lifeCycle_sample :
    ∃ b, Battle.start Sample.catalog Sample.settings 1 ["strike", "mend", "echo"]
        [{ monsterId := "slime", hp := some 6 }] = .ok b ∧
      (run { battle := b } [.play 0 (some (.enemy 0)), .drain, .endTurn]).LifeCycle := by
  obtain ⟨b, h⟩ := exists_start_sample
  exact ⟨b, h, lifeCycle_run h _⟩

end Session
end CardBattle
