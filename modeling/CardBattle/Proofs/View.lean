import CardBattle.Proofs.Fighters
import Mathlib.Logic.Function.Basic

/-!
# CardBattle.Proofs.View

The events tell the state of all fighters and the progress of the battle. A view is what a
listener who only hears the events keeps: hit points, stacks of buffs, gauges, action points,
intents and the turn order. Heard from the beginning, the history of a battle gives the view of
its state.

* `FighterView.hear`, `View.hear`: what a listener makes of one event.
* `Fighter.Change.heard`: the events of one change of a fighter tell this change.
* `Step.heard`: the events of a step tell the step.
* `view_run`: the view after every sequence of calls.
-/

namespace CardBattle

/-- What is heard of a fighter. -/
@[ext]
structure FighterView where
  hp : Int
  /-- The stacks of the buffs that the fighter has. -/
  buffs : BuffKind → Option Nat

namespace FighterView

def of (f : Fighter) : FighterView := { hp := f.hp, buffs := f.buffs.stackOf? }

def hear (w : FighterView) : Event → FighterView
  | .damaged _ report => { w with hp := w.hp - report.lost }
  | .healed _ amount => { w with hp := w.hp + amount }
  | .buffApplied _ kind stack => { w with buffs := Function.update w.buffs kind (some stack) }
  | .buffExpired _ kind => { w with buffs := Function.update w.buffs kind none }
  | _ => w

theorem foldl_hear_expired (id : FighterId) (kinds : List BuffKind) (w : FighterView) :
    (kinds.map (.buffExpired id)).foldl hear w =
      { w with buffs := fun k => if k ∈ kinds then none else w.buffs k } := by
  induction kinds generalizing w with
  | nil => simp
  | cons kind kinds ih =>
    rw [List.map_cons, List.foldl_cons, ih]
    simp only [hear, mk.injEq, true_and]
    funext k
    by_cases hk : k = kind
    · simp [hk]
    · simp [hk, Function.update]

end FighterView

namespace Fighter

open FighterView

/-- What expires is told, and nothing else leaves the ledger. -/
theorem heard_prune {id : FighterId} {f f' : Fighter} {l : Ledger} {w : FighterView}
    (distinct : f.buffs.Distinct) (hp : w.hp = f'.hp) (before : w.buffs = f.buffs.stackOf?)
    (faces : l.entries.map Ledger.face = f.buffs.entries.map Ledger.face)
    (buffs : f'.buffs = l.prune.2) :
    (l.prune.1.map (.buffExpired id)).foldl hear w = of f' := by
  rw [foldl_hear_expired]
  refine FighterView.ext hp ?_
  funext k
  have kept := Ledger.stackOf?_prune (Ledger.distinct_of_faces faces distinct) k
  rw [Ledger.stackOf?_of_faces faces] at kept
  simp only [of, buffs, before, kept]

/-- The events of a change, heard on top of what was there, give what is there. -/
theorem Change.heard {id : FighterId} {f f' : Fighter} {es : List Event}
    (h : f.Change id es f') (sound : f.Sound) : es.foldl hear (of f) = of f' := by
  cases h with
  | hit x alive =>
    obtain ⟨l, faces, told, buffs⟩ := buffs_takeHit f x
    rw [List.foldl_cons, told]
    exact heard_prune sound.distinct (hp_takeHit f x).symm rfl faces buffs
  | mend x alive =>
    have restored := (restored_mend sound.hp_le_maxHp x).1
    split
    · exact FighterView.ext (hp_mend f x).symm rfl
    · -- a sound fighter is not above its maximum, so untold healing restores nothing
      have none : (f.mend x).1 = 0 := by omega
      refine FighterView.ext ?_ rfl
      simp [of, hp_mend, none]
  | @apply spec buff hb =>
    refine FighterView.ext rfl ?_
    funext k
    have added := Ledger.stackOf?_add sound.distinct buff k
    by_cases hk : k = buff.kind
    · subst hk
      rw [if_pos rfl] at added
      exact (Function.update_self buff.kind _ _).trans added.symm
    · rw [if_neg hk] at added
      exact (Function.update_of_ne hk _ _).trans added.symm
  | cleanse n =>
    rw [foldl_hear_expired]
    refine FighterView.ext rfl ?_
    funext k
    exact (Ledger.stackOf?_cleanse sound.distinct n k).symm
  | settle hu => exact heard_prune sound.distinct rfl rfl hu.faces rfl

end Fighter

/-- What is heard of an enemy. -/
@[ext]
structure EnemyView where
  fighter : FighterView
  intent : Option String
  casts : UInt32

/-- What is heard of a battle. -/
structure View where
  player : FighterView
  enemies : List EnemyView
  angel : Int
  demon : Int
  actionPoints : Int
  phase : Phase
  turn : UInt32
  outcome : Option Outcome

def EnemyView.of (e : Enemy) : EnemyView :=
  { fighter := .of e.fighter, intent := e.intent, casts := e.casts }

namespace View

def of (b : Battle) : View :=
  { player := .of b.player.fighter
    enemies := b.enemies.map EnemyView.of
    angel := b.player.angel
    demon := b.player.demon
    actionPoints := b.player.actionPoints
    phase := b.phase
    turn := b.turn
    outcome := b.outcome }

/-- All are at full hit points and without buffs, and nothing has happened. -/
def opening (settings : Settings) (enemyHp : List Int) : View :=
  { player := { hp := max 1 settings.playerMaxHp, buffs := fun _ => none }
    enemies := enemyHp.map fun hp =>
      { fighter := { hp, buffs := fun _ => none }, intent := none, casts := 0 }
    angel := Settings.clampGauge settings.gaugeDefault
    demon := Settings.clampGauge settings.gaugeDefault
    actionPoints := 0
    phase := .battleStart
    turn := 0
    outcome := none }

def updateEnemy (v : View) (id : FighterId) (g : EnemyView → EnemyView) : View :=
  match id with
  | .player => v
  | .enemy i => { v with enemies := v.enemies.modify i g }

def updateFighter (v : View) (id : FighterId) (g : FighterView → FighterView) : View :=
  match id with
  | .player => { v with player := g v.player }
  | .enemy i => { v with enemies := v.enemies.modify i fun e => { e with fighter := g e.fighter } }

/-- Events about fighters are left to their views; the others overwrite what they tell. -/
def hear (v : View) (e : Event) : View :=
  match e with
  | .damaged id _ | .healed id _ | .buffApplied id _ _ | .buffExpired id _ =>
    v.updateFighter id fun w => w.hear e
  | .gaugesChanged angel demon => { v with angel, demon }
  | .actionPointsChanged actionPoints => { v with actionPoints }
  | .phaseChanged phase => { v with phase }
  | .turnStarted turn => { v with turn }
  | .battleEnded outcome => { v with outcome := some outcome }
  | .intentChosen id intent => v.updateEnemy id fun e => { e with intent }
  | .skillUsed id _ => v.updateEnemy id fun e => { e with casts := e.casts + 1 }
  | _ => v

theorem updateFighter_id (v : View) (id : FighterId) : v.updateFighter id (fun w => w) = v := by
  cases id with
  | player => rfl
  | enemy i =>
    have same : v.enemies.modify i (fun e => e) = v.enemies := List.modify_id i v.enemies
    simp only [updateFighter, same]

theorem updateFighter_updateFighter (v : View) (id : FighterId)
    (g h : FighterView → FighterView) :
    (v.updateFighter id g).updateFighter id h = v.updateFighter id fun w => h (g w) := by
  cases id with
  | player => rfl
  | enemy i => simp only [updateFighter, List.modify_modify_eq, Function.comp_def]

theorem hear_of_subject? {e : Event} {id : FighterId} (h : e.subject? = some id) (v : View) :
    v.hear e = v.updateFighter id fun w => w.hear e := by
  cases e <;> first | cases h; rfl | cases h

/-- A listener can leave the events about one fighter to the view of this fighter. -/
theorem foldl_hear_of_subject? {es : List Event} {id : FighterId}
    (h : ∀ e ∈ es, e.subject? = some id) (v : View) :
    es.foldl hear v = v.updateFighter id fun w => es.foldl FighterView.hear w := by
  induction es generalizing v with
  | nil => exact (v.updateFighter_id id).symm
  | cons e es ih =>
    rw [List.foldl_cons, ih fun x hx => h x (List.mem_cons_of_mem e hx),
      hear_of_subject? (h e List.mem_cons_self), updateFighter_updateFighter]
    rfl

/-- Nothing is learnt from events about copies and from remarks. -/
theorem foldl_hear_silent {es : List Event} (h : ∀ e ∈ es, e.topic = .copies ∨ e.topic = .remark)
    (v : View) : es.foldl hear v = v := by
  induction es with
  | nil => rfl
  | cons e es ih =>
    have first : v.hear e = v := by
      rcases h e List.mem_cons_self with other | other <;>
        cases e <;> first | rfl | cases other
    rw [List.foldl_cons, first]
    exact ih fun x hx => h x (List.mem_cons_of_mem e hx)

/-! ## Views of a battle -/

theorem of_setFighter {b : Battle} {id : FighterId} {f f' : Fighter}
    {g : FighterView → FighterView} (hf : b.fighter? id = some f)
    (hg : g (.of f) = .of f') : of (b.setFighter id f') = (of b).updateFighter id g := by
  cases id with
  | player =>
    cases hf
    simp only [of, Battle.setFighter, updateFighter, hg]
  | enemy i =>
    obtain ⟨e, he, rfl⟩ := Option.map_eq_some_iff.mp hf
    have enemies : (b.enemies.modify i fun e => { e with fighter := f' }).map EnemyView.of =
        (b.enemies.map EnemyView.of).modify i fun e => { e with fighter := g e.fighter } := by
      apply List.ext_getElem?
      intro k
      simp only [List.getElem?_map, List.getElem?_modify]
      by_cases hk : i = k
      · subst hk
        simp [he, EnemyView.of, hg]
      · simp [hk]
    simp only [of, Battle.setFighter, updateFighter, enemies]

theorem of_updateEnemy (b : Battle) (id : FighterId) {g : Enemy → Enemy}
    {h : EnemyView → EnemyView} (hg : ∀ e, EnemyView.of (g e) = h (.of e)) :
    of (b.updateEnemy id g) = (of b).updateEnemy id h := by
  cases id with
  | player => rfl
  | enemy i =>
    have enemies : (b.enemies.modify i g).map EnemyView.of =
        (b.enemies.map EnemyView.of).modify i h := by
      apply List.ext_getElem?
      intro k
      simp only [List.getElem?_map, List.getElem?_modify]
      by_cases hk : i = k
      · cases b.enemies[k]? <;> simp [hk, hg]
      · simp [hk]
    simp only [of, Battle.updateEnemy, updateEnemy, enemies]

theorem of_updateIntent (b : Battle) (id : FighterId) (intent : Option String) :
    of (b.updateEnemy id fun e => { e with intent }) =
      (of b).updateEnemy id fun e => { e with intent } :=
  of_updateEnemy b id fun _ => rfl

end View

open View

/-- What is told from `b` to `b'` turns the view of `b` into the view of `b'`. -/
def Battle.Heard (b b' : Battle) : Prop :=
  ∃ es, b'.events.toList = b.events.toList ++ es ∧ es.foldl hear (of b) = of b'

theorem Battle.heard_emitAll {b b' : Battle} {es : List Event} (events : b'.events = b.events)
    (h : es.foldl hear (of b) = of b') : b.Heard (b'.emitAll es) := by
  refine ⟨es, by rw [events_emitAll, events], ?_⟩
  rw [emitAll_eq]
  exact h

theorem Battle.heard_emit {b b' : Battle} {e : Event} (events : b'.events = b.events)
    (h : hear (of b) e = of b') : b.Heard (b'.emit e) :=
  ⟨[e], by rw [← events]; exact Array.toList_push, h⟩

theorem Move.heard {b b' : Battle} (h : Move b b') (sound : b.Sound) : b.Heard b' := by
  cases h with
  | @fighter id f f' es hf h =>
    refine Battle.heard_emitAll ?_ ?_
    · obtain ⟨_, _, eq⟩ := b.exists_setFighter_eq id f'
      rw [eq]
    · rw [foldl_hear_of_subject? h.subject]
      exact (of_setFighter hf (h.heard (sound id f hf))).symm
  | piles h =>
    exact Battle.heard_emitAll rfl (foldl_hear_silent (fun e he => .inl (h.topic e he)) _)
  | gauges shifts =>
    obtain ⟨_, _, eq⟩ := b.player.exists_shifts_eq shifts
    rw [eq]
    exact ⟨_, Array.toList_push, rfl⟩
  | points h =>
    obtain ⟨n, eq⟩ := h.exists_eq
    rw [eq]
    exact ⟨_, Array.toList_push, rfl⟩
  | enqueue _ => exact ⟨_, Array.toList_push, rfl⟩
  | tick => exact ⟨[], (List.append_nil _).symm, rfl⟩
  | @remark e he =>
    refine ⟨_, Array.toList_push, foldl_hear_silent ?_ _⟩
    intro x hx
    rw [List.mem_singleton.mp hx]
    exact .inr he
  | choose id =>
    simp only [Battle.chooseIntent]
    split
    · exact ⟨[], (List.append_nil _).symm, rfl⟩
    · refine Battle.heard_emit ?_ ?_
      · obtain ⟨_, eq⟩ := Battle.exists_updateEnemy_eq _ id _
        rw [eq]
      · rw [of_updateIntent]
        rfl
  | @cast id e s _ _ =>
    refine Battle.heard_emit ?_ ?_
    · obtain ⟨_, eq⟩ := b.exists_updateEnemy_eq id _
      rw [eq]
    · exact (of_updateEnemy b id fun _ => rfl).symm

theorem Stage.heard {b b' : Battle} (h : Stage b b') (sound : b.Sound) : b.Heard b' := by
  cases h with
  | move h => exact h.heard sound
  | opening phase =>
    refine Battle.heard_emit rfl ?_
    simp only [hear, View.of, phase]
  | playerTurn => exact ⟨_, b.events_turnBegun, rfl⟩
  | sweep =>
    refine Battle.heard_emitAll rfl (foldl_hear_silent ?_ _)
    exact fun e he => .inl (Event.topic_ofCopies (fun _ => rfl) _ e he)
  | enemyTurn => exact ⟨_, Array.toList_push, rfl⟩
  | @ending o _ => exact ⟨_, b.events_ended o, rfl⟩

theorem Step.heard {b b' : Battle} (h : Step b b') (sound : b.Sound) : b.Heard b' := by
  cases h with
  | stage h => exact h.heard sound
  | handover h =>
    exact Battle.heard_emitAll rfl (foldl_hear_silent (fun e he => .inl (h.topic e he)) _)

/-! ## Sessions -/

namespace Session

/-- The history, heard from a view on, gives the view of the battle. -/
structure Heard (v : View) (s : Session) : Prop where
  sound : s.battle.Sound
  view : s.history.foldl hear v = View.of s.battle

theorem heard_step {v : View} {s : Session} {b : Battle} (step : Step s.battle b)
    (h : s.Heard v) : Heard v { s with battle := b } := by
  obtain ⟨es, events, heard⟩ := step.heard h.sound
  refine ⟨step.sound h.sound, ?_⟩
  rw [history_told events, List.foldl_append, h.view]
  exact heard

theorem heard_drain {v : View} {s : Session} (h : s.Heard v) : (s.call .drain).Heard v :=
  ⟨h.sound, by rw [history_drain]; exact h.view⟩

theorem view_build {c : Catalog} {settings : Settings} {seed : UInt64} {deck : List String}
    {foes : List Foe} {b : Battle} (h : Battle.build c settings seed deck foes = .ok b) :
    View.of b = opening settings (b.enemies.map fun e => e.fighter.maxHp) := by
  obtain ⟨cards, enemies, _, _, he, built⟩ := Battle.build_eq_ok h
  have fresh : enemies.map EnemyView.of = enemies.map fun e =>
      { fighter := { hp := e.fighter.maxHp, buffs := fun _ => none }
        intent := none
        casts := 0 } := by
    refine List.map_congr_left fun e hm => ?_
    obtain ⟨_, _, _, _, rfl⟩ := Battle.mem_enemiesOf he hm
    rfl
  rw [built]
  simp only [View.of, opening, List.map_map, fresh]
  rfl

theorem view_run {c : Catalog} {settings : Settings} {seed : UInt64} {deck : List String}
    {foes : List Foe} {b : Battle} (h : Battle.start c settings seed deck foes = .ok b)
    (calls : List Call) :
    ∃ enemies, c.enemiesOf 0 foes = .ok enemies ∧
      (run { battle := b } calls).history.foldl View.hear
          (.opening settings (enemies.map fun e => e.fighter.maxHp)) =
        .of (run { battle := b } calls).battle := by
  obtain ⟨b₀, hb, _⟩ := Battle.exists_build_of_start h
  obtain ⟨_, enemies, _, _, he, built⟩ := Battle.build_eq_ok hb
  refine ⟨enemies, he, ?_⟩
  have heard : (run { battle := b } calls).Heard
      (.opening settings (enemies.map fun e => e.fighter.maxHp)) := by
    refine invariant_of_start (fun _ _ => heard_step) (fun _ => heard_drain) h ?_ calls
    intro b₁ hb₁
    refine ⟨Battle.sound_of_build hb₁, ?_⟩
    have view := view_build hb₁
    rw [hb, Except.ok.injEq] at hb₁
    have foes : b₁.enemies = enemies := by rw [← hb₁, built]
    have silent : b₁.events = #[] := by rw [← hb₁, built]
    rw [foes] at view
    simp only [history, silent]
    exact view.symm
  exact heard.view

/-- A play, the end of the turn, and the draining of the log. -/
theorem view_sample :
    ∃ b enemies, Battle.start Sample.catalog Sample.settings 1 ["strike", "mend", "echo"]
        [{ monsterId := "slime", hp := some 6 }] = .ok b ∧
      Sample.catalog.enemiesOf 0 [{ monsterId := "slime", hp := some 6 }] = .ok enemies ∧
      (run { battle := b } [.play 1 none, .endTurn, .drain]).history.foldl View.hear
          (.opening Sample.settings (enemies.map fun e => e.fighter.maxHp)) =
        .of (run { battle := b } [.play 1 none, .endTurn, .drain]).battle := by
  obtain ⟨b, h⟩ := exists_start_sample
  obtain ⟨enemies, he, view⟩ := view_run h [.play 1 none, .endTurn, .drain]
  exact ⟨b, enemies, h, he, view⟩

end Session
end CardBattle
