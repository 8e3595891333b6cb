import CardBattle.Proofs.Hits
import CardBattle.Proofs.Telegraph
import Mathlib.Data.List.Find

/-!
# CardBattle.Proofs.Volley

Damage to all enemies is as many single hits, each of them on its own. One after the other, the
hits do not get in each other's way: a hit reads of the enemies only the one it is aimed at, and of
the player only the buffs that raise or lower its amount. What lifesteel does to the player changes
nothing of that, and after the first enemy that loses hit points there is no lifesteel left.

* `Fighter.drained`, `Fighter.drained_drained`: life is drained once.
* `Enemy.suffer`, `Battle.strike_enemy`: a single hit.
* `Progress.Alone`, `Progress.alone_foldl`: all hits, by induction on who is still to be hit.
* `Frame.volley_separates`: damage to all enemies, next to single hits from the same state.
-/

namespace CardBattle

/-! ## Lifesteel -/

namespace Ledger

/-- What drains life is an active lifesteel that has not been triggered. -/
theorem drainable?_eq_some {b : Buff} {percent : Single} (h : drainable? b = some percent) :
    b.data = .lifesteel percent false ∧ b.isActive = true := by
  simp only [drainable?] at h
  split at h
  · rename_i data
    split at h
    · rename_i active
      cases h
      exact ⟨data, active⟩
    · cases h
  · cases h

theorem kind_of_drainable? {b : Buff} {percent : Single} (h : drainable? b = some percent) :
    b.kind = .lifesteel := congrArg BuffData.kind (drainable?_eq_some h).1

theorem isActive_drained {b : Buff} {percent : Single} (h : drainable? b = some percent) :
    (drained b).isActive = false := by
  simp only [drained, (drainable?_eq_some h).1]
  rfl

/-- Of distinct kinds only one is lifesteel, and it is used up. -/
theorem drainable?_drainFrom {bs : List Buff} (distinct : (bs.map Buff.kind).Nodup) :
    ∀ b ∈ (drainFrom bs).2, drainable? b = none := by
  induction bs with
  | nil => exact nofun
  | cons c cs ih =>
    obtain ⟨other, others⟩ := List.nodup_cons.mp distinct
    simp only [drainFrom]
    split
    · rename_i percent used
      intro b hb
      rcases List.mem_cons.mp hb with rfl | later
      · exact Thinned.drainable?_of_inert (isActive_drained used)
      · by_contra drains
        obtain ⟨percent', again⟩ := Option.ne_none_iff_exists'.mp drains
        exact other (kind_of_drainable? used ▸ kind_of_drainable? again ▸
          List.mem_map_of_mem later)
    · rename_i unused
      intro b hb
      rcases List.mem_cons.mp hb with rfl | later
      · exact unused
      · exact ih others b later

theorem drainFrom_of_none {bs : List Buff} (h : ∀ b ∈ bs, drainable? b = none) :
    (drainFrom bs).1 = none := by
  induction bs with
  | nil => rfl
  | cons b bs ih =>
    simp only [drainFrom, h b List.mem_cons_self]
    exact ih fun c hc => h c (List.mem_cons_of_mem b hc)

/-- A ledger drains once. -/
theorem drain_drain {l : Ledger} (distinct : l.Distinct) : l.drain.2.prune.2.drain.1 = none :=
  drainFrom_of_none fun b hb => drainable?_drainFrom distinct b (List.mem_of_mem_filter hb)

/-- Lifesteel has no part in the amount of a hit. -/
theorem foldl_drainFrom (bs : List Buff) (x : Single) :
    ((drainFrom bs).2.filter Buff.isActive).foldl outgoingStep x =
      (bs.filter Buff.isActive).foldl outgoingStep x := by
  induction bs generalizing x with
  | nil => rfl
  | cons b bs ih =>
    simp only [drainFrom]
    split
    · -- the lifesteel that is used up has had no part in it
      rename_i percent used
      obtain ⟨data, active⟩ := drainable?_eq_some used
      rw [List.filter_cons_of_neg (by simp [isActive_drained used]), List.filter_cons_of_pos active,
        List.foldl_cons]
      simp only [outgoingStep, data]
    · cases active : b.isActive with
      | true => simp only [List.filter_cons, active, if_true, List.foldl_cons, ih]
      | false => simp only [List.filter_cons, active, Bool.false_eq_true, if_false, ih]

theorem outgoing_drain (l : Ledger) (x : Single) :
    l.drain.2.prune.2.outgoing x = l.outgoing x := by
  have kept : l.drain.2.prune.2.active = (drainFrom l.entries).2.filter Buff.isActive := by
    simp [active, prune, drain]
  rw [outgoing, kept, foldl_drainFrom]
  rfl

end Ledger

namespace Fighter

/-- A fighter whose hit has cost an enemy some hit points: the first lifesteel heals it, and is used
up. -/
def drained (lost : Int) (f : Fighter) : Fighter :=
  match f.buffs.drain with
  | (none, _) => f
  | (some percent, buffs) =>
    let f := { f with buffs := buffs.prune.2 }
    if f.isAlive then (f.mend (Binary.ofInt lost * percent / Ledger.hundred)).2 else f

theorem drained_of_none {f : Fighter} (h : f.buffs.drain.1 = none) (lost : Int) :
    f.drained lost = f := by
  simp only [drained]
  split
  · rfl
  · rename_i eq
    rw [eq] at h
    cases h

theorem buffs_drained {f : Fighter} (h : f.buffs.drain.1 ≠ none) (lost : Int) :
    (f.drained lost).buffs = f.buffs.drain.2.prune.2 := by
  simp only [drained]
  split
  · rename_i eq
    exact absurd (congrArg Prod.fst eq) h
  · rename_i percent buffs eq
    rw [eq]
    split <;> rfl

theorem strength_drained (lost : Int) (f : Fighter) (x : Single) :
    (f.drained lost).strength x = f.strength x := by
  by_cases none : f.buffs.drain.1 = none
  · rw [drained_of_none none]
  · rw [strength, buffs_drained none, Ledger.outgoing_drain, strength]

/-- Life is drained once. -/
theorem drained_drained {f : Fighter} (distinct : f.buffs.Distinct) (lost again : Int) :
    (f.drained lost).drained again = f.drained lost := by
  by_cases none : f.buffs.drain.1 = none
  · rw [drained_of_none none, drained_of_none none]
  · refine drained_of_none ?_ again
    rw [buffs_drained none]
    exact Ledger.drain_drain distinct

theorem distinct_drained {f : Fighter} (distinct : f.buffs.Distinct) (lost : Int) :
    (f.drained lost).buffs.Distinct := by
  by_cases none : f.buffs.drain.1 = none
  · rwa [drained_of_none none]
  · rw [buffs_drained none]
    exact Ledger.distinct_prune
      (Ledger.distinct_of_faces (Ledger.faces_drainFrom f.buffs.entries) distinct)

end Fighter

/-! ## A single hit -/

namespace Enemy

/-- What a hit reports of an enemy. -/
def report (amount : Single) (e : Enemy) : HitReport :=
  if Binary.le amount (.finite 0) || !e.fighter.isAlive then {} else (e.fighter.takeHit amount).1

/-- What a hit makes of an enemy. -/
def suffer (amount : Single) (e : Enemy) : Enemy :=
  if Binary.le amount (.finite 0) || !e.fighter.isAlive then e
  else { e with fighter := (e.fighter.takeHit amount).2.2 }

/-- An enemy at another place of the battle order. -/
def moved (id : FighterId) (e : Enemy) : Enemy := { e with fighter := { e.fighter with id } }

theorem suffer_of_dead {e : Enemy} (h : e.fighter.isAlive = false) (amount : Single) :
    e.suffer amount = e := by
  simp [suffer, h]

theorem suffer_moved (amount : Single) (id : FighterId) (e : Enemy) :
    (e.moved id).suffer amount = (e.suffer amount).moved id := by
  have alike : (e.moved id).fighter.isAlive = e.fighter.isAlive := rfl
  simp only [suffer, alike]
  split <;> rfl

end Enemy

namespace Battle

variable {b : Battle} {i : Nat} {e : Enemy}

theorem exists_of_isAlive (alive : b.isAlive (.enemy i) = true) :
    ∃ e, b.enemy? (.enemy i) = some e := by
  simp only [isAlive, fighter?] at alive
  cases he : b.enemies[i]? with
  | none => simp [he] at alive
  | some e => exact ⟨e, he⟩

theorem InOrder.not_mem_living (order : b.InOrder) {id : FighterId} (lies : b.isAlive id = false) :
    id ∉ b.living := by
  intro there
  rw [(order.of_mem_living there).2] at lies
  cases lies

theorem player_emitAll (b : Battle) (es : List Event) : (b.emitAll es).player = b.player := by
  rw [emitAll_eq]

theorem enemy?_setFighter (h : b.enemy? (.enemy i) = some e) (f : Fighter) :
    (b.setFighter (.enemy i) f).enemy? (.enemy i) = some { e with fighter := f } := by
  have here : b.enemies[i]? = some e := h
  simp [setFighter, enemy?, here]

theorem hurt_enemy (h : b.enemy? (.enemy i) = some e) (amount : Single) :
    (b.hurt (.enemy i) amount).1 = e.report amount ∧
      (b.hurt (.enemy i) amount).2.enemy? (.enemy i) = some (e.suffer amount) := by
  have hf := fighter?_of_enemy? h
  cases alive : e.fighter.isAlive with
  | false =>
    have lies : b.isAlive (.enemy i) = false := by rw [isAlive_eq hf, alive]
    simp [hurt_of_isAlive lies, Enemy.report, Enemy.suffer, alive, h]
  | true =>
    cases positive : Binary.le amount (.finite 0) with
    | true => simp [hurt_of_le positive, Enemy.report, Enemy.suffer, positive, h]
    | false =>
      rw [hurt_eq hf alive positive]
      simp [Enemy.report, Enemy.suffer, positive, alive, enemy?_emitAll, enemy?_setFighter h]

/-- A hit replaces its target, or does nothing. -/
theorem hurt_snd (b : Battle) (t : FighterId) (amount : Single) :
    (b.hurt t amount).2 = b ∨
      ∃ f es, (b.hurt t amount).2 = (b.setFighter t f).emitAll es := by
  simp only [hurt]
  split
  · exact .inl rfl
  · split
    · exact .inl rfl
    · rename_i f _
      split
      · exact .inr ⟨(f.takeHit amount).2.2, .damaged t (f.takeHit amount).1 ::
          (f.takeHit amount).2.1.map fun k => .buffExpired t k, rfl⟩
      · exact .inl rfl

theorem enemy?_hurt {t id : FighterId} (h : id ≠ t) (amount : Single) :
    (b.hurt t amount).2.enemy? id = b.enemy? id := by
  obtain same | ⟨f, es, eq⟩ := hurt_snd b t amount
  · rw [same]
  · rw [eq, enemy?_emitAll, enemy?_setFighter_of_ne h]

theorem player_hurt (b : Battle) (i : Nat) (amount : Single) :
    (b.hurt (.enemy i) amount).2.player = b.player := by
  obtain same | ⟨f, es, eq⟩ := hurt_snd b (.enemy i) amount
  · rw [same]
  · rw [eq, player_emitAll]
    rfl

theorem heal_player (b : Battle) (x : Single) :
    (b.heal .player x).2.player =
        { b.player with
          fighter := if b.player.fighter.isAlive then (b.player.fighter.mend x).2
            else b.player.fighter } ∧
      (b.heal .player x).2.enemies = b.enemies := by
  simp only [heal, fighter?]
  split
  · split <;> exact ⟨rfl, rfl⟩
  · exact ⟨rfl, rfl⟩

theorem drainLife_player (b : Battle) (lost : Int) :
    (b.drainLife .player lost).player =
        { b.player with fighter := b.player.fighter.drained lost } ∧
      (b.drainLife .player lost).enemies = b.enemies := by
  simp only [drainLife, Fighter.drained, fighter?]
  generalize b.player.fighter.buffs.drain = drain
  obtain ⟨percent, buffs⟩ := drain
  cases percent with
  | none => exact ⟨rfl, rfl⟩
  | some percent =>
    simp only [emitExpired, emitAll_eq, heal_player]
    exact ⟨rfl, rfl⟩

/-! ## A strike of the player -/

section

variable (b : Battle) (i : Nat) (x : Single)

theorem strike_snd :
    (b.strike .player (.enemy i) x).2 =
      if 0 < (b.strike .player (.enemy i) x).1.lost then
        (b.hurt (.enemy i) (b.player.fighter.strength x)).2.drainLife .player
          (b.strike .player (.enemy i) x).1.lost
      else (b.hurt (.enemy i) (b.player.fighter.strength x)).2 := by
  by_cases lost : 0 < (b.hurt (.enemy i) (b.player.fighter.strength x)).1.lost <;>
    simp [strike, fighter?, lost]

theorem player_strike :
    (b.strike .player (.enemy i) x).2.player =
      if 0 < (b.strike .player (.enemy i) x).1.lost then
        { b.player with
          fighter := b.player.fighter.drained (b.strike .player (.enemy i) x).1.lost }
      else b.player := by
  rw [strike_snd]
  split
  · rw [(drainLife_player _ _).1, player_hurt]
  · exact player_hurt b i _

theorem enemies_strike :
    (b.strike .player (.enemy i) x).2.enemies =
      (b.hurt (.enemy i) (b.player.fighter.strength x)).2.enemies := by
  rw [strike_snd]
  split
  · exact (drainLife_player _ _).2
  · rfl

theorem enemy?_strike {id : FighterId} (h : id ≠ .enemy i) :
    (b.strike .player (.enemy i) x).2.enemy? id = b.enemy? id := by
  have same := enemy?_hurt (b := b) h (b.player.fighter.strength x)
  cases id with
  | player => rfl
  | enemy k =>
    simp only [enemy?, enemies_strike] at same ⊢
    exact same

/-- A strike reads of the enemies only the one it is aimed at, and of the player only how strong it
is. -/
theorem strike_enemy {e : Enemy} (h : b.enemy? (.enemy i) = some e) :
    (b.strike .player (.enemy i) x).1 = e.report (b.player.fighter.strength x) ∧
      (b.strike .player (.enemy i) x).2.enemy? (.enemy i) =
        some (e.suffer (b.player.fighter.strength x)) := by
  obtain ⟨report, suffers⟩ := hurt_enemy h (b.player.fighter.strength x)
  refine ⟨report, ?_⟩
  simp only [enemy?, enemies_strike] at suffers ⊢
  exact suffers

theorem strength_strike (y : Single) :
    (b.strike .player (.enemy i) x).2.player.fighter.strength y = b.player.fighter.strength y := by
  rw [player_strike]
  split
  · exact Fighter.strength_drained _ _ y
  · rfl

end

/-! ## A strike after another -/

variable {k : Nat}

/-- What another strike has done before changes neither what a strike reports nor what it does to
its target. -/
theorem strike_strike (h : b.enemy? (.enemy k) = some e) (other : k ≠ i) (x : Single) :
    ((b.strike .player (.enemy i) x).2.strike .player (.enemy k) x).1 =
        (b.strike .player (.enemy k) x).1 ∧
      ((b.strike .player (.enemy i) x).2.strike .player (.enemy k) x).2.enemy? (.enemy k) =
        (b.strike .player (.enemy k) x).2.enemy? (.enemy k) := by
  have elsewhere : FighterId.enemy k ≠ .enemy i := fun eq => other (FighterId.enemy.inj eq)
  obtain ⟨report, suffers⟩ :=
    strike_enemy (b.strike .player (.enemy i) x).2 k x ((enemy?_strike b i x elsewhere).trans h)
  rw [strength_strike] at report suffers
  obtain ⟨report', suffers'⟩ := strike_enemy b k x h
  exact ⟨report.trans report'.symm, suffers.trans suffers'.symm⟩

/-- Once an enemy has lost hit points, no strike does anything to the player any more. -/
theorem player_strike_of_lost (distinct : b.player.fighter.buffs.Distinct) {x : Single}
    (lost : 0 < (b.strike .player (.enemy i) x).1.lost) :
    ((b.strike .player (.enemy i) x).2.strike .player (.enemy k) x).2.player =
      (b.strike .player (.enemy i) x).2.player := by
  have drained := player_strike b i x
  rw [if_pos lost] at drained
  rw [player_strike]
  split
  · rw [drained, Fighter.drained_drained distinct]
  · rfl

theorem distinct_strike (distinct : b.player.fighter.buffs.Distinct) (i : Nat) (x : Single) :
    (b.strike .player (.enemy i) x).2.player.fighter.buffs.Distinct := by
  rw [player_strike]
  split
  · exact Fighter.distinct_drained distinct _
  · exact distinct

end Battle

/-! ## All strikes -/

namespace Progress

/-- Strikes of the player on some enemies, next to a strike on each of them alone. -/
structure Alone (x : Single) (ts : List FighterId) (p q : Progress) : Prop where
  struck : ∀ t ∈ ts, q.battle.enemy? t = (p.battle.strike .player t x).2.enemy? t
  spared : ∀ t, t ∉ ts → q.battle.enemy? t = p.battle.enemy? t
  killed : q.killed = true ↔
    p.killed = true ∨ ∃ t ∈ ts, (p.battle.strike .player t x).1.killed = true
  player : q.battle.player =
    match ts.find? fun t => 0 < (p.battle.strike .player t x).1.lost with
    | none => p.battle.player
    | some t => (p.battle.strike .player t x).2.player

/-- The enemies of the battle without one. -/
def Others (b : Battle) (i : Nat) (ts : List FighterId) : Prop :=
  ∀ t ∈ ts, ∃ k e, t = .enemy k ∧ k ≠ i ∧ b.enemy? t = some e

section

variable {x : Single} {ts : List FighterId} {p q : Progress} {i : Nat}

theorem reports_strike (others : Others p.battle i ts) :
    ∀ t ∈ ts, ((p.strike .player x (.enemy i)).battle.strike .player t x).1 =
      (p.battle.strike .player t x).1 := by
  intro t ht
  obtain ⟨k, e, rfl, other, here⟩ := others t ht
  exact (Battle.strike_strike here other x).1

/-- What the first strike does to the player, all do. -/
theorem player_alone (others : Others p.battle i ts)
    (distinct : p.battle.player.fighter.buffs.Distinct)
    (h : Alone x ts (p.strike .player x (.enemy i)) q) :
    q.battle.player =
      match (FighterId.enemy i :: ts).find? fun t => 0 < (p.battle.strike .player t x).1.lost with
      | none => p.battle.player
      | some t => (p.battle.strike .player t x).2.player := by
  have first :
      (ts.find? fun t =>
        0 < ((p.strike .player x (.enemy i)).battle.strike .player t x).1.lost) =
      ts.find? fun t => 0 < (p.battle.strike .player t x).1.lost :=
    List.find?_congr fun t ht => by rw [reports_strike others t ht]
  rw [h.player, first, List.find?_cons]
  by_cases lost : 0 < (p.battle.strike .player (.enemy i) x).1.lost
  · -- lifesteel is used up, whoever loses hit points later
    simp only [lost, decide_true]
    cases found : ts.find? fun t => 0 < (p.battle.strike .player t x).1.lost with
    | none => rfl
    | some t =>
      obtain ⟨k, e, rfl, _, _⟩ := others t (List.mem_of_find?_eq_some found)
      exact Battle.player_strike_of_lost distinct lost
  · -- the player is as before
    have same : (p.strike .player x (.enemy i)).battle.player = p.battle.player :=
      (Battle.player_strike _ _ _).trans (if_neg lost)
    simp only [lost, decide_false]
    cases found : ts.find? fun t => 0 < (p.battle.strike .player t x).1.lost with
    | none => exact same
    | some t =>
      have mem := List.mem_of_find?_eq_some found
      have reports := reports_strike (x := x) others t mem
      obtain ⟨k, e, rfl, _, _⟩ := others t mem
      simp only [Battle.player_strike, reports, same]

theorem Alone.cons (fresh : .enemy i ∉ ts) (others : Others p.battle i ts)
    (distinct : p.battle.player.fighter.buffs.Distinct)
    (h : Alone x ts (p.strike .player x (.enemy i)) q) : Alone x (.enemy i :: ts) p q where
  struck t ht := by
    rcases List.mem_cons.mp ht with rfl | later
    · exact h.spared _ fresh
    · obtain ⟨k, e, rfl, other, here⟩ := others t later
      exact (h.struck _ later).trans (Battle.strike_strike here other x).2
  spared t ht := by
    obtain ⟨other, others⟩ := not_or.mp (List.mem_cons.not.mp ht)
    exact (h.spared t others).trans (Battle.enemy?_strike _ i x other)
  killed := by
    have reports := reports_strike (x := x) others
    rw [h.killed]
    simp only [List.exists_mem_cons_iff, ← or_assoc]
    refine or_congr (by simp [Progress.strike]) ?_
    exact exists_congr fun t => and_congr_right fun ht => by rw [reports t ht]
  player := player_alone others distinct h

end

/-- By induction on the enemies that are still to be struck: what the first strike has left is, for
all others, as good as the state before. -/
theorem alone_foldl {ts : List FighterId} {p : Progress} (x : Single)
    (there : ∀ t ∈ ts, ∃ i e, t = .enemy i ∧ p.battle.enemy? t = some e) (nodup : ts.Nodup)
    (distinct : p.battle.player.fighter.buffs.Distinct) :
    Alone x ts p (ts.foldl (Progress.strike .player x) p) := by
  induction ts generalizing p with
  | nil => exact ⟨nofun, fun _ _ => rfl, by simp, rfl⟩
  | cons t ts ih =>
    obtain ⟨i, e, rfl, _⟩ := there t List.mem_cons_self
    obtain ⟨fresh, rest⟩ := List.nodup_cons.mp nodup
    have others : Others p.battle i ts := by
      intro s hs
      obtain ⟨k, e, rfl, here⟩ := there s (List.mem_cons_of_mem _ hs)
      exact ⟨k, e, rfl, fun eq => fresh (eq ▸ hs), here⟩
    have there' : ∀ s ∈ ts, ∃ k e, s = .enemy k ∧
        (p.strike .player x (.enemy i)).battle.enemy? s = some e := by
      intro s hs
      obtain ⟨k, e, rfl, other, here⟩ := others s hs
      have elsewhere : FighterId.enemy k ≠ .enemy i := fun eq => other (FighterId.enemy.inj eq)
      exact ⟨k, e, rfl, (Battle.enemy?_strike _ i x elsewhere).trans here⟩
    exact .cons fresh others distinct
      (ih there' rest (Battle.distinct_strike distinct i x))

end Progress

/-! ## Damage to all enemies -/

namespace Frame

variable {echo : Echo} {frame : Frame} {p : Progress}

theorem alone_volley (caster : frame.caster = .player) (order : p.battle.InOrder)
    (distinct : p.battle.player.fighter.buffs.Distinct) (x : Single) :
    Progress.Alone x p.battle.living p (frame.execute echo p (.damageOpponents x)) := by
  have fold : frame.execute echo p (.damageOpponents x) =
      p.battle.living.foldl (Progress.strike .player x) p := by
    simp only [execute, caster, Battle.opponents]
  rw [fold]
  refine Progress.alone_foldl x (fun t ht => ?_) order.nodup_living distinct
  obtain ⟨⟨i, rfl⟩, alive⟩ := order.of_mem_living ht
  obtain ⟨e, he⟩ := Battle.exists_of_isAlive alive
  exact ⟨i, e, rfl, he⟩

/-- Every enemy suffers the hit as if it were alone. -/
theorem enemy?_volley (caster : frame.caster = .player) (order : p.battle.InOrder)
    (distinct : p.battle.player.fighter.buffs.Distinct) (x : Single) {i : Nat} {e : Enemy}
    (h : p.battle.enemy? (.enemy i) = some e) :
    (frame.execute echo p (.damageOpponents x)).battle.enemy? (.enemy i) =
      some (e.suffer (p.battle.player.fighter.strength x)) := by
  have alone : Progress.Alone x p.battle.living p (frame.execute echo p (.damageOpponents x)) :=
    alone_volley caster order distinct x
  cases alive : p.battle.isAlive (.enemy i) with
  | true =>
    rw [alone.struck _ (order.mem_living alive)]
    exact (Battle.strike_enemy p.battle i x h).2
  | false =>
    have lies : e.fighter.isAlive = false := by
      rwa [Battle.isAlive_eq (Battle.fighter?_of_enemy? h)] at alive
    rw [alone.spared _ (order.not_mem_living alive), h, Enemy.suffer_of_dead lies]

/-- Damage to all enemies, next to single hits from the same state. -/
structure Separates (x : Single) (p q : Progress) : Prop where
  living : ∀ i, p.battle.isAlive (.enemy i) = true →
    q.battle.enemy? (.enemy i) = (p.battle.strike .player (.enemy i) x).2.enemy? (.enemy i)
  dead : ∀ i, p.battle.isAlive (.enemy i) = false →
    q.battle.enemy? (.enemy i) = p.battle.enemy? (.enemy i)
  killed : q.killed = true ↔ p.killed = true ∨
    ∃ i, p.battle.isAlive (.enemy i) = true ∧
      (p.battle.strike .player (.enemy i) x).1.killed = true
  /-- The player is as after the first hit that costs an enemy hit points. -/
  player : q.battle.player =
    match p.battle.living.find? fun t => 0 < (p.battle.strike .player t x).1.lost with
    | none => p.battle.player
    | some t => (p.battle.strike .player t x).2.player
  /-- In any other battle the same enemy suffers the same of the same player, whoever stands beside
  it. -/
  apart : ∀ (echo' : Echo) (frame' : Frame) (p' : Progress), frame'.caster = .player →
    p'.battle.InOrder → p'.battle.player.fighter = p.battle.player.fighter →
    ∀ i j e, p.battle.enemy? (.enemy i) = some e →
      p'.battle.enemy? (.enemy j) = some (e.moved (.enemy j)) →
      (frame'.execute echo' p' (.damageOpponents x)).battle.enemy? (.enemy j) =
        (q.battle.enemy? (.enemy i)).map (Enemy.moved (.enemy j))

/-- Damage to all enemies is as many single hits. Lifesteel heals once, because a ledger has only
one entry of its kind. -/
theorem volley_separates (echo : Echo) (caster : frame.caster = .player)
    (order : p.battle.InOrder) (distinct : p.battle.player.fighter.buffs.Distinct) (x : Single) :
    Separates x p (frame.execute echo p (.damageOpponents x)) where
  living i alive := (alone_volley caster order distinct x).struck _ (order.mem_living alive)
  dead i lies := (alone_volley caster order distinct x).spared _ (order.not_mem_living lies)
  killed := by
    rw [(alone_volley caster order distinct x).killed]
    refine or_congr_right ⟨?_, ?_⟩
    · rintro ⟨t, ht, killed⟩
      obtain ⟨⟨i, rfl⟩, alive⟩ := order.of_mem_living ht
      exact ⟨i, alive, killed⟩
    · rintro ⟨i, alive, killed⟩
      exact ⟨_, order.mem_living alive, killed⟩
  player := (alone_volley caster order distinct x).player
  apart echo' frame' p' caster' order' same i j e here there := by
    rw [enemy?_volley caster order distinct x here,
      enemy?_volley caster' order' (same ▸ distinct) x there, same, Enemy.suffer_moved]
    rfl

/-- A player that drains life, and deals 4 more with each hit. -/
def vampire : Fighter :=
  { id := .player, hp := 10, maxHp := 30
    buffs := ⟨[⟨.lifesteel (.finite 50) false, 1, -1⟩, ⟨.boostDmg (.finite 2), 2, 3⟩]⟩ }

/-- Its turn against four enemies: a guarded one, a sound one, a dead one and a weak one. -/
def besieged : Progress :=
  { battle := .staged vampire
      [ { id := .enemy 0, hp := 20, maxHp := 20, buffs := ⟨[⟨.guard, 1, 2⟩]⟩ },
        .fresh (.enemy 1) 12, { id := .enemy 2, hp := 0, maxHp := 20 }, .fresh (.enemy 3) 5 ]
    killed := false }

def barrage : Progress :=
  Frame.execute (fun _ _ p => p) { caster := .player, target := none, slots := [] } besieged
    (.damageOpponents (.finite 6))

/-- Life is drained once, from the second enemy, and the last one is killed. -/
theorem volley_separates_vampire :
    Separates (.finite 6) besieged barrage ∧ barrage.killed = true ∧
      barrage.battle.player = (besieged.battle.strike .player (.enemy 1) (.finite 6)).2.player ∧
      barrage.battle.player.fighter.hp = 15 := by
  have order : besieged.battle.InOrder := by
    intro i f hf
    match i with
    | 0 | 1 | 2 | 3 => cases hf; rfl
    | _ + 4 => cases hf
  have distinct : besieged.battle.player.fighter.buffs.Distinct := by
    simp [Ledger.Distinct, besieged, Battle.staged, vampire, Buff.kind, BuffData.kind]
  have separates : Separates (.finite 6) besieged barrage :=
    volley_separates (fun _ _ p => p) rfl order distinct (.finite 6)
  have first : (besieged.battle.living.find? fun t =>
      0 < (besieged.battle.strike .player t (.finite 6)).1.lost) = some (.enemy 1) := by
    decide +kernel
  have player := separates.player
  simp only [first] at player
  refine ⟨separates, separates.killed.mpr (.inr ⟨3, ?_, ?_⟩), player, ?_⟩
  · decide
  · decide +kernel
  · rw [player]
    decide +kernel

end Frame

end CardBattle
