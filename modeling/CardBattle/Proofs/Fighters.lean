import CardBattle.Proofs.Ledger
import CardBattle.Proofs.Session

/-!
# CardBattle.Proofs.Fighters

What every fighter keeps through a whole battle: hit points between 0 and their maximum, and a
ledger of distinct kinds.

* `Fighter.Sound`, `Fighter.Change.sound`: the invariant and its step.
* `Battle.Deals`, `Step.deals`: a step changes one fighter by a `Fighter.Change`, or none, and tells
  nothing else of fighters. `Step.fighters` makes what all changes keep a step of an invariant.
* `Battle.Sound`, `Battle.Named`: all fighters are sound, and carry their own identity.
* `Battle.InOrder`: the enemies do so.
-/

namespace CardBattle

structure Fighter.Sound (f : Fighter) : Prop where
  hp_nonneg : 0 ≤ f.hp
  hp_le_maxHp : f.hp ≤ f.maxHp
  distinct : f.buffs.Distinct

namespace Fighter

theorem sound_fresh (id : FighterId) (n : Int) : (fresh id n).Sound := by
  refine ⟨?_, ?_, ?_⟩
  · simp only [fresh]; omega
  · simp only [fresh]; omega
  · exact List.nodup_nil

/-! ## Hits -/

/-- A hit only prunes: the ledger before has the faces that the ledger had. -/
theorem buffs_takeHit (f : Fighter) (x : Single) :
    ∃ l : Ledger, l.entries.map Ledger.face = f.buffs.entries.map Ledger.face ∧
      (f.takeHit x).2.1 = l.prune.1 ∧ (f.takeHit x).2.2.buffs = l.prune.2 := by
  refine ⟨if 0 < (f.takeHit x).1.lost then (f.buffs.incoming x).2.record (f.takeHit x).1.lost
    else (f.buffs.incoming x).2, ?_, rfl, rfl⟩
  split
  · exact (Ledger.faces_record _ _).trans (Ledger.faces_incomingFrom _ x)
  · exact Ledger.faces_incomingFrom _ x

theorem hp_takeHit (f : Fighter) (x : Single) :
    (f.takeHit x).2.2.hp = f.hp - (f.takeHit x).1.lost := rfl

theorem lost_takeHit {f : Fighter} (h : 0 ≤ f.hp) (x : Single) :
    0 ≤ (f.takeHit x).1.lost ∧ (f.takeHit x).1.lost ≤ f.hp := by
  simp only [takeHit]
  omega

theorem hp_mend (f : Fighter) (x : Single) : (f.mend x).2.hp = f.hp + (f.mend x).1 := rfl

theorem restored_mend {f : Fighter} (h : f.hp ≤ f.maxHp) (x : Single) :
    0 ≤ (f.mend x).1 ∧ (f.mend x).1 ≤ f.maxHp - f.hp := by
  simp only [mend]
  split <;> omega

end Fighter

theorem Ledger.Use.faces {l l' : Ledger} (h : l.Use l') :
    l'.entries.map face = l.entries.map face := by
  cases h with
  | idle => rfl
  | turnStart => exact faces_turnStarted l
  | swift => exact faces_takeSwiftFrom l.entries
  | drain => exact faces_drainFrom l.entries

theorem Fighter.Change.sound {id : FighterId} {f f' : Fighter} {es : List Event}
    (h : f.Change id es f') (hf : f.Sound) : f'.Sound := by
  cases h with
  | hit x alive =>
    have lost := lost_takeHit hf.hp_nonneg x
    have bound := hf.hp_le_maxHp
    obtain ⟨l, faces, _, buffs⟩ := buffs_takeHit f x
    refine ⟨?_, ?_, ?_⟩
    · rw [hp_takeHit]; omega
    · rw [hp_takeHit, maxHp_takeHit]; omega
    · rw [buffs]
      exact Ledger.distinct_prune (Ledger.distinct_of_faces faces hf.distinct)
  | mend x alive =>
    have restored := restored_mend hf.hp_le_maxHp x
    have bound := hf.hp_nonneg
    refine ⟨?_, ?_, hf.distinct⟩
    · rw [hp_mend]; omega
    · rw [hp_mend, maxHp_mend]; omega
  | apply _ => exact ⟨hf.hp_nonneg, hf.hp_le_maxHp, Ledger.distinct_add hf.distinct _⟩
  | cleanse n => exact ⟨hf.hp_nonneg, hf.hp_le_maxHp, Ledger.distinct_cleanse hf.distinct n⟩
  | settle hu =>
    exact ⟨hf.hp_nonneg, hf.hp_le_maxHp,
      Ledger.distinct_prune (Ledger.distinct_of_faces hu.faces hf.distinct)⟩

namespace Battle

/-! ## Frames -/

theorem fighter?_congr {b b' : Battle} (hp : b'.player.fighter = b.player.fighter)
    (he : b'.enemies.map Enemy.fighter = b.enemies.map Enemy.fighter) (id : FighterId) :
    b'.fighter? id = b.fighter? id := by
  cases id with
  | player => simp only [fighter?, hp]
  | enemy i => simp only [fighter?, ← List.getElem?_map, he]

theorem fighter?_of_enemy? {b : Battle} {id : FighterId} {e : Enemy} (h : b.enemy? id = some e) :
    b.fighter? id = some e.fighter := by
  cases id with
  | player => cases h
  | enemy i => exact congrArg (Option.map Enemy.fighter) h

theorem fighter?_emitAll (b : Battle) (es : List Event) (id : FighterId) :
    (b.emitAll es).fighter? id = b.fighter? id := by
  rw [emitAll_eq]
  exact fighter?_congr rfl rfl id

theorem fighter?_setFighter {b : Battle} {id : FighterId} {f : Fighter} (f' : Fighter)
    (hf : b.fighter? id = some f) (j : FighterId) :
    (b.setFighter id f').fighter? j = if j = id then some f' else b.fighter? j := by
  cases id with
  | player => cases j <;> simp [setFighter, fighter?]
  | enemy i =>
    cases j with
    | player => simp [setFighter, fighter?]
    | enemy k =>
      simp only [fighter?, Option.map_eq_some_iff] at hf
      obtain ⟨e, he, _⟩ := hf
      by_cases hk : k = i
      · subst hk
        simp [setFighter, fighter?, he]
      · have hk' : ¬ i = k := fun h => hk h.symm
        simp [setFighter, fighter?, hk, hk']

theorem enemy?_emitAll (b : Battle) (es : List Event) (id : FighterId) :
    (b.emitAll es).enemy? id = b.enemy? id := by
  rw [emitAll_eq]
  cases id <;> rfl

theorem enemy?_setFighter_of_ne {b : Battle} {id t : FighterId} (h : id ≠ t) (f : Fighter) :
    (b.setFighter t f).enemy? id = b.enemy? id := by
  cases t with
  | player => cases id <;> rfl
  | enemy k =>
    cases id with
    | player => rfl
    | enemy i =>
      have other : k ≠ i := fun eq => h (congrArg FighterId.enemy eq.symm)
      simp [setFighter, enemy?, other]

/-- What an update keeps of an enemy, it keeps of all of them. -/
theorem map_updateEnemy {α : Type} (p : Enemy → α) (b : Battle) (id : FighterId) {g : Enemy → Enemy}
    (hg : ∀ e, p (g e) = p e) : (b.updateEnemy id g).enemies.map p = b.enemies.map p := by
  cases id with
  | player => rfl
  | enemy i =>
    apply List.ext_getElem?
    intro k
    simp only [updateEnemy, List.getElem?_map, List.getElem?_modify]
    split
    · cases b.enemies[k]? <;> simp [hg]
    · simp

theorem map_fighter_updateEnemy (b : Battle) (id : FighterId) (g : Enemy → Enemy)
    (hg : ∀ e, (g e).fighter = e.fighter) :
    (b.updateEnemy id g).enemies.map Enemy.fighter = b.enemies.map Enemy.fighter :=
  map_updateEnemy Enemy.fighter b id hg

end Battle

/-- What a step tells, and what it does to the fighters: nothing, or one change of one of them. -/
inductive Battle.Deals (b : Battle) : List Event → Battle → Prop where
  | aside {es : List Event} {b' : Battle} (events : b'.events.toList = b.events.toList ++ es)
      (quiet : ∀ e ∈ es, e.topic ≠ .fighters) (same : ∀ id, b'.fighter? id = b.fighter? id) :
      Deals b es b'
  | change {id : FighterId} {f f' : Fighter} {es : List Event} (hf : b.fighter? id = some f)
      (h : f.Change id es f') : Deals b es ((b.setFighter id f').emitAll es)

theorem Battle.events_setFighter (b : Battle) (id : FighterId) (f : Fighter) :
    (b.setFighter id f).events = b.events := by
  cases id <;> rfl

theorem Battle.events_updateEnemy (b : Battle) (id : FighterId) (g : Enemy → Enemy) :
    (b.updateEnemy id g).events = b.events := by
  cases id <;> rfl

theorem Battle.Deals.events {b b' : Battle} {es : List Event} (h : b.Deals es b') :
    b'.events.toList = b.events.toList ++ es := by
  cases h with
  | aside events _ _ => exact events
  | @change id _ f' _ _ _ => rw [events_emitAll, events_setFighter]

theorem Battle.deals_emitAll {b b' : Battle} {es : List Event} {t : Event.Topic}
    (topic : ∀ e ∈ es, e.topic = t) (ht : t ≠ .fighters) (events : b'.events = b.events)
    (same : ∀ id, b'.fighter? id = b.fighter? id) : b.Deals es (b'.emitAll es) := by
  refine .aside ?_ ?_ ?_
  · rw [events_emitAll, events]
  · intro e he
    rw [topic e he]
    exact ht
  · intro id
    rw [fighter?_emitAll, same]

theorem Battle.deals_emit {b b' : Battle} {e : Event} (topic : e.topic ≠ .fighters)
    (events : b'.events = b.events) (same : ∀ id, b'.fighter? id = b.fighter? id) :
    b.Deals [e] (b'.emit e) := by
  have told : b.Deals [e] (b'.emitAll [e]) :=
    deals_emitAll (t := e.topic) (by simp) topic events same
  exact told

theorem Battle.deals_nothing {b b' : Battle} (events : b'.events = b.events)
    (same : ∀ id, b'.fighter? id = b.fighter? id) : b.Deals [] b' :=
  .aside (by simp [events]) nofun same

theorem Move.deals {b b' : Battle} (h : Move b b') : ∃ es, b.Deals es b' := by
  cases h with
  | fighter hf h => exact ⟨_, .change hf h⟩
  | piles h =>
    exact ⟨_, Battle.deals_emitAll h.topic nofun rfl (Battle.fighter?_congr rfl rfl)⟩
  | gauges shifts =>
    obtain ⟨_, _, eq⟩ := b.player.exists_shifts_eq shifts
    rw [eq]
    exact ⟨_, Battle.deals_emit nofun rfl (Battle.fighter?_congr rfl rfl)⟩
  | points h =>
    obtain ⟨n, eq⟩ := h.exists_eq
    rw [eq]
    exact ⟨_, Battle.deals_emit nofun rfl (Battle.fighter?_congr rfl rfl)⟩
  | enqueue h =>
    have told : b.Deals _ (b.emit (.delayedQueued h.caster h.damage h.remaining)) :=
      Battle.deals_emit nofun rfl fun _ => rfl
    exact ⟨_, .aside told.events (by simp [Event.topic]) (Battle.fighter?_congr rfl rfl)⟩
  | tick => exact ⟨_, Battle.deals_nothing rfl (Battle.fighter?_congr rfl rfl)⟩
  | remark topic =>
    exact ⟨_, Battle.deals_emit (by simp [topic]) rfl fun _ => rfl⟩
  | choose j =>
    simp only [Battle.chooseIntent]
    split
    · exact ⟨_, Battle.deals_nothing rfl (Battle.fighter?_congr rfl rfl)⟩
    · refine ⟨_, Battle.deals_emit (by simp [Event.topic]) ?_ (Battle.fighter?_congr ?_ ?_)⟩
      · exact Battle.events_updateEnemy _ j _
      · rw [Battle.player_updateEnemy]
      · exact Battle.map_fighter_updateEnemy _ j _ fun _ => rfl
  | @cast j _ _ _ _ =>
    refine ⟨_, Battle.deals_emit (by simp [Event.topic]) ?_ (Battle.fighter?_congr ?_ ?_)⟩
    · exact Battle.events_updateEnemy _ j _
    · rw [Battle.player_updateEnemy]
    · exact Battle.map_fighter_updateEnemy _ j _ fun _ => rfl

theorem Step.deals {b b' : Battle} (h : Step b b') : ∃ es, b.Deals es b' := by
  cases h with
  | handover h =>
    exact ⟨_, Battle.deals_emitAll h.topic nofun rfl (Battle.fighter?_congr rfl rfl)⟩
  | stage h =>
    cases h with
    | move h => exact h.deals
    | opening _ => exact ⟨_, Battle.deals_emit nofun rfl fun _ => rfl⟩
    | playerTurn =>
      exact ⟨_, .aside b.events_turnBegun (by simp [Event.topic]) (Battle.fighter?_congr rfl rfl)⟩
    | sweep =>
      exact ⟨_, Battle.deals_emitAll (t := .copies) (Event.topic_ofCopies (fun _ => rfl) _) nofun
        rfl (Battle.fighter?_congr rfl rfl)⟩
    | enemyTurn =>
      have told : b.Deals _ ({ b with phase := .enemyTurn }.emit (.phaseChanged .enemyTurn)) :=
        Battle.deals_emit (by simp [Event.topic]) rfl (Battle.fighter?_congr rfl rfl)
      exact ⟨_, told⟩
    | @ending o _ =>
      exact ⟨_, .aside (b.events_ended o) (by simp [Event.topic]) (Battle.fighter?_congr rfl rfl)⟩

/-- What every change of a fighter keeps holds of all fighters after a step, if it did before. -/
theorem Step.fighters {P : FighterId → Fighter → Prop} {b b' : Battle} (h : Step b b')
    (change : ∀ id f es f', f.Change id es f' → P id f → P id f')
    (hb : ∀ id f, b.fighter? id = some f → P id f) :
    ∀ id f, b'.fighter? id = some f → P id f := by
  obtain ⟨es, deals⟩ := h.deals
  cases deals with
  | aside _ _ same =>
    intro j g hg
    exact hb j g (same j ▸ hg)
  | @change id f f' _ hf happened =>
    intro j g hg
    rw [Battle.fighter?_emitAll, Battle.fighter?_setFighter f' hf] at hg
    split at hg
    · rename_i eq
      cases hg
      rw [eq]
      exact change id f es f' happened (hb id f hf)
    · exact hb j g hg

/-! ## The invariant -/

def Battle.Sound (b : Battle) : Prop := ∀ id f, b.fighter? id = some f → f.Sound

theorem Step.sound {b b' : Battle} (h : Step b b') (hb : b.Sound) : b'.Sound :=
  h.fighters (P := fun _ f => f.Sound) (fun _ _ _ _ change hf => change.sound hf) hb

theorem Steps.sound {b b' : Battle} (h : Steps b b') (hb : b.Sound) : b'.Sound := by
  induction h with
  | refl => exact hb
  | tail _ last ih => exact last.sound ih

/-- Every fighter carries its own identity. -/
def Battle.Named (b : Battle) : Prop := ∀ id f, b.fighter? id = some f → f.id = id

/-- Every enemy carries the identity of its place. -/
def Battle.InOrder (b : Battle) : Prop := ∀ i f, b.fighter? (.enemy i) = some f → f.id = .enemy i

theorem Battle.Named.inOrder {b : Battle} (named : b.Named) : b.InOrder := fun i => named (.enemy i)

theorem Fighter.Change.id {id : FighterId} {f f' : Fighter} {es : List Event}
    (h : f.Change id es f') : f'.id = f.id := by
  cases h <;> rfl

theorem Step.named {b b' : Battle} (h : Step b b') (hb : b.Named) : b'.Named :=
  h.fighters (P := fun id f => f.id = id) (fun _ _ _ _ change hf => change.id.trans hf) hb

theorem Steps.named {b b' : Battle} (h : Steps b b') (hb : b.Named) : b'.Named := by
  induction h with
  | refl => exact hb
  | tail _ last ih => exact last.named ih

namespace Battle

/-- Each enemy is made for the foe at its place. -/
theorem getElem?_enemiesOf {c : Catalog} {place : Nat} {foes : List Foe} {enemies : List Enemy}
    (h : c.enemiesOf place foes = .ok enemies) {i : Nat} {e : Enemy} (he : enemies[i]? = some e) :
    ∃ foe, foes[i]? = some foe ∧ c.enemyOf (place + i) foe = .ok e := by
  induction foes generalizing place enemies i with
  | nil =>
    cases h
    cases he
  | cons foe foes ih =>
    simp only [Catalog.enemiesOf] at h
    cases first : c.enemyOf place foe with
    | error e => simp [first] at h
    | ok e₁ =>
      cases others : c.enemiesOf (place + 1) foes with
      | error e => simp [first, others, Except.map] at h
      | ok rest =>
        simp only [first, others, Except.map, Except.ok.injEq] at h
        subst h
        cases i with
        | zero =>
          cases he
          exact ⟨foe, rfl, first⟩
        | succ i =>
          obtain ⟨foe', there, made⟩ := ih others he
          exact ⟨foe', there, by rw [← made, Nat.add_right_comm, Nat.add_assoc]⟩

theorem enemyOf_eq_ok {c : Catalog} {place : Nat} {foe : Foe} {e : Enemy}
    (h : c.enemyOf place foe = .ok e) :
    ∃ m behavior skills, c.monsters.find? foe.monsterId = some m ∧
      e = .fresh (.enemy place) { m with hp := foe.hp.getD m.hp } behavior skills := by
  simp only [Catalog.enemyOf] at h
  cases hm : c.monsters.find? foe.monsterId with
  | none => simp [hm] at h
  | some m =>
    simp only [hm, Except.ok.injEq] at h
    exact ⟨m, _, _, rfl, h.symm⟩

theorem mem_enemiesOf {c : Catalog} {place : Nat} {foes : List Foe} {enemies : List Enemy}
    (h : c.enemiesOf place foes = .ok enemies) {e : Enemy} (he : e ∈ enemies) :
    ∃ id m behavior skills, e = .fresh id m behavior skills := by
  obtain ⟨i, hi⟩ := List.mem_iff_getElem?.mp he
  obtain ⟨foe, _, made⟩ := getElem?_enemiesOf h hi
  obtain ⟨m, behavior, skills, _, eq⟩ := enemyOf_eq_ok made
  exact ⟨_, _, behavior, skills, eq⟩

/-- A fighter of a battle that has been built is fresh, under its own identity. -/
theorem fresh_of_build {c : Catalog} {settings : Settings} {seed : UInt64} {deck : List String}
    {foes : List Foe} {b : Battle} (h : build c settings seed deck foes = .ok b) {id : FighterId}
    {f : Fighter} (hf : b.fighter? id = some f) :
    ∃ n, f = .fresh id n ∧
      (id = .player ∧ n = settings.playerMaxHp ∨
        ∃ foe ∈ foes, ∃ m, c.monsters.find? foe.monsterId = some m ∧ n = foe.hp.getD m.hp) := by
  obtain ⟨cards, enemies, _, _, he, eq⟩ := build_eq_ok h
  rw [eq] at hf
  cases id with
  | player =>
    cases hf
    exact ⟨_, rfl, .inl ⟨rfl, rfl⟩⟩
  | enemy i =>
    obtain ⟨e, hi, rfl⟩ := Option.map_eq_some_iff.mp hf
    obtain ⟨foe, there, made⟩ := getElem?_enemiesOf he hi
    obtain ⟨m, behavior, skills, hm, rfl⟩ := enemyOf_eq_ok made
    rw [Nat.zero_add]
    exact ⟨_, rfl, .inr ⟨foe, List.mem_of_getElem? there, m, hm, rfl⟩⟩

theorem sound_of_build {c : Catalog} {settings : Settings} {seed : UInt64} {deck : List String}
    {foes : List Foe} {b : Battle} (h : build c settings seed deck foes = .ok b) : b.Sound := by
  intro id f hf
  obtain ⟨n, rfl, _⟩ := fresh_of_build h hf
  exact Fighter.sound_fresh id n

theorem named_of_build {c : Catalog} {settings : Settings} {seed : UInt64} {deck : List String}
    {foes : List Foe} {b : Battle} (h : build c settings seed deck foes = .ok b) : b.Named := by
  intro id f hf
  obtain ⟨n, rfl, _⟩ := fresh_of_build h hf
  rfl

end Battle

theorem Session.sound_run {c : Catalog} {settings : Settings} {seed : UInt64}
    {deck : List String} {foes : List Foe} {b : Battle}
    (h : Battle.start c settings seed deck foes = .ok b) (calls : List Call) :
    (run { battle := b } calls).battle.Sound :=
  invariant_of_start (P := fun s => s.battle.Sound) (fun _ _ step hs => step.sound hs)
    (fun _ hs => hs) h (fun _ built => Battle.sound_of_build built) calls

theorem Session.named_run {c : Catalog} {settings : Settings} {seed : UInt64}
    {deck : List String} {foes : List Foe} {b : Battle}
    (h : Battle.start c settings seed deck foes = .ok b) (calls : List Call) :
    (run { battle := b } calls).battle.Named :=
  invariant_of_start (P := fun s => s.battle.Named) (fun _ _ step hs => step.named hs)
    (fun _ hs => hs) h (fun _ built => Battle.named_of_build built) calls

end CardBattle
