import CardBattle.Proofs.Quiet
import Mathlib.Algebra.Order.Ring.Rat
import Mathlib.Tactic.Linarith

/-!
# CardBattle.Proofs.Hits

A hit, point by point. What the incoming buffs leave of it is rounded, the shield takes what it
can, the hit points lose the rest, and the report says how much each of them lost. Nothing but the
fighter that is hit changes, and the log.

* `Binary.RoundsTo`, `Fighter.Rounds`: what is rounded to what.
* `Fighter.Accounts`, `Ledger.Bears`: what becomes of the points and of the buffs of a fighter.
* `Battle.OnlyFighter`: the frame.
* `Battle.hurt_accounts`: the accounts of a hit, whoever is hit and by whatever amount.
-/

namespace CardBattle

/-! ## Rounding -/

namespace Binary

/-- The integer nearest to a rational, of two equally near ones the one farther from zero. -/
structure RoundsTo (q : Rat) (n : Int) : Prop where
  near : |q - n| ≤ 1 / 2
  tie : |q - n| = 1 / 2 → |q| < |(n : Rat)|

theorem RoundsTo.neg {q : Rat} {n : Int} (h : RoundsTo q n) : RoundsTo (-q) (-n) := by
  have mirrored : -q - ((-n : Int) : Rat) = -(q - n) := by
    rw [Rat.intCast_neg, neg_sub_neg, neg_sub]
  have size : |((-n : Int) : Rat)| = |(n : Rat)| := by rw [Rat.intCast_neg, abs_neg]
  constructor
  · rw [mirrored, abs_neg]
    exact h.near
  · rw [mirrored, abs_neg, abs_neg, size]
    exact h.tie

theorem roundsTo_floor {q : Rat} (h : 0 ≤ q) : RoundsTo q (q + 1 / 2).floor := by
  have below := Rat.floor_le (q + 1 / 2)
  have above : q + 1 / 2 - 1 < ((q + 1 / 2).floor : Rat) := Rat.lt_floor
  refine ⟨abs_le.mpr ⟨by linarith, by linarith⟩, fun tie => ?_⟩
  rcases (abs_eq (by norm_num)).mp tie with near | far
  · linarith
  · rw [abs_of_nonneg h]
    exact lt_of_lt_of_le (by linarith) (le_abs_self _)

theorem roundsTo_roundHalfAway (q : Rat) : RoundsTo q (roundHalfAway q) := by
  simp only [roundHalfAway]
  split
  · rename_i negative
    have mirrored := (roundsTo_floor (q := -q) (by linarith)).neg
    rwa [neg_neg] at mirrored
  · rename_i nonneg
    exact roundsTo_floor (not_lt.mp nonneg)

end Binary

/-- The amount that a number is rounded to: an infinity to an end of the range, and what is no
number to nothing. -/
def Fighter.Rounds : Single → Int → Prop
  | .nan, n => n = 0
  | .infinite negative, n => n = if negative then Amount.least else Amount.greatest
  | .finite q, n => ∃ m, Binary.RoundsTo q m ∧ n = Amount.saturate m

theorem Fighter.rounds_roundAmount (x : Single) : Rounds x (roundAmount x) := by
  cases x with
  | nan => rfl
  | infinite negative => rfl
  | finite q => exact ⟨_, Binary.roundsTo_roundHalfAway q, rfl⟩

/-! ## The points -/

/-- What a hit of some damage does to the points of a fighter, and what is reported. -/
structure Fighter.Accounts (f : Fighter) (damage : Int) (report : HitReport) (f' : Fighter) :
    Prop where
  absorbed : report.absorbed = min f.shield damage
  lost : report.lost = min f.hp (damage - report.absorbed)
  shield : f'.shield = f.shield - report.absorbed
  hp : f'.hp = f.hp - report.lost
  killed : report.killed = true ↔ f'.hp = 0
  total : 0 ≤ f.shield → report.absorbed + report.lost = min (f.shield + f.hp) damage
  id : f'.id = f.id
  maxHp : f'.maxHp = f.maxHp

theorem Fighter.accounts_takeHit {f : Fighter} (alive : f.isAlive = true) (x : Single) :
    f.Accounts (max 0 (roundAmount (f.buffs.incoming x).1)) (f.takeHit x).1 (f.takeHit x).2.2 := by
  have pos : 0 < f.hp := by simpa [isAlive] using alive
  constructor
  case killed =>
    simp only [takeHit, Bool.not_eq_true', decide_eq_false_iff_not]
    omega
  case total =>
    intro shield
    simp only [takeHit]
    omega
  all_goals rfl

/-! ## The buffs -/

namespace Ledger

/-- What a hit makes of an entry: a guard can be spent on it, and fear remembers the hit points
lost. -/
inductive Bears (lost : Int) (b : Buff) : Buff → Prop where
  | spent (guard : b.data = .guard) (active : b.isActive = true) : Bears lost b b.expire
  | kept : Bears lost b (if 0 < lost then recordIn lost b else b)

/-- All entries bear a hit, and those that are inert then leave the ledger. -/
structure Worn (l : Ledger) (lost : Int) (gone : List BuffKind) (l' : Ledger) : Prop where
  exists_bears : ∃ worn, List.Forall₂ (Bears lost) l.entries worn ∧
    gone = (worn.filter fun b => !b.isActive).map Buff.kind ∧ l'.entries = worn.filter Buff.isActive

theorem meet_snd (b : Buff) (x : Single) :
    (meet b x).2 = b ∨ b.data = .guard ∧ b.isActive = true ∧ (meet b x).2 = b.expire := by
  simp only [meet]
  split
  · rename_i active
    split
    · exact .inl rfl
    · rename_i guard
      split
      · exact .inr ⟨guard, active, rfl⟩
      · exact .inl rfl
    · exact .inl rfl
  · exact .inl rfl

theorem bears_meet (lost : Int) (b : Buff) (x : Single) :
    Bears lost b (if 0 < lost then recordIn lost (meet b x).2 else (meet b x).2) := by
  obtain same | ⟨guard, active, spent⟩ := meet_snd b x
  · rw [same]
    exact .kept
  · have forgets : recordIn lost b.expire = b.expire := by simp only [recordIn, Buff.expire, guard]
    rw [spent, forgets, ite_self]
    exact .spent guard active

theorem bears_incomingFrom (lost : Int) (bs : List Buff) (x : Single) :
    List.Forall₂ (Bears lost) bs
      ((incomingFrom bs x).2.map fun b => if 0 < lost then recordIn lost b else b) := by
  induction bs generalizing x with
  | nil => exact .nil
  | cons b bs ih => exact .cons (bears_meet lost b x) (ih _)

end Ledger

theorem Fighter.worn_takeHit (f : Fighter) (x : Single) :
    f.buffs.Worn (f.takeHit x).1.lost (f.takeHit x).2.1 (f.takeHit x).2.2.buffs := by
  have recorded : (if 0 < (f.takeHit x).1.lost then
      (f.buffs.incoming x).2.record (f.takeHit x).1.lost else (f.buffs.incoming x).2).entries =
      (Ledger.incomingFrom f.buffs.entries x).2.map fun b =>
        if 0 < (f.takeHit x).1.lost then Ledger.recordIn (f.takeHit x).1.lost b else b := by
    split
    · rfl
    · exact (List.map_id _).symm
  refine ⟨_, Ledger.bears_incomingFrom (f.takeHit x).1.lost f.buffs.entries x, ?_, ?_⟩
  · rw [← recorded]
    rfl
  · rw [← recorded]
    rfl

/-! ## The frame -/

namespace Battle

/-- Nothing but one fighter has changed, and the log. -/
structure OnlyFighter (id : FighterId) (b b' : Battle) : Prop where
  others : ∀ j, j ≠ id → b'.fighter? j = b.fighter? j
  player : b'.player = { b.player with fighter := b'.player.fighter }
  enemies : List.Forall₂ (fun e e' => e' = { e with fighter := e'.fighter }) b.enemies b'.enemies
  settings : b'.settings = b.settings
  turn : b'.turn = b.turn
  phase : b'.phase = b.phase
  outcome : b'.outcome = b.outcome
  delayed : b'.delayed = b.delayed
  chance : b'.chance = b.chance
  pool : b'.pool = b.pool

theorem onlyFighter_setFighter (b : Battle) (id : FighterId) (f : Fighter) (es : List Event) :
    b.OnlyFighter id ((b.setFighter id f).emitAll es) := by
  rw [emitAll_eq]
  have others : ∀ j, j ≠ id → (b.setFighter id f).fighter? j = b.fighter? j :=
    fun j other => fighter?_setFighter_of_ne b other f
  have same : List.Forall₂ (fun e e' : Enemy => e' = { e with fighter := e'.fighter })
      b.enemies b.enemies := List.forall₂_same.mpr fun _ _ => rfl
  cases id with
  | player => exact ⟨others, rfl, same, rfl, rfl, rfl, rfl, rfl, rfl, rfl⟩
  | enemy i =>
    refine ⟨others, rfl, ?_, rfl, rfl, rfl, rfl, rfl, rfl, rfl⟩
    refine List.forall₂_iff_get.mpr ⟨by simp [setFighter], fun k _ _ => ?_⟩
    simp only [setFighter, List.get_eq_getElem, List.getElem_modify]
    split <;> rfl

/-! ## A hit -/

variable {b : Battle} {target : FighterId} {f : Fighter} {amount : Single}

theorem hurt_of_le (h : Binary.le amount (.finite 0) = true) (target : FighterId) (b : Battle) :
    b.hurt target amount = ({}, b) := by
  simp only [hurt, h, if_true]

theorem hurt_of_isAlive (h : b.isAlive target = false) (amount : Single) :
    b.hurt target amount = ({}, b) := by
  simp only [isAlive] at h
  simp only [hurt]
  split
  · rfl
  · split
    · rfl
    · rename_i f hf
      simp only [hf] at h
      simp only [h, Bool.false_eq_true, if_false]

theorem hurt_eq (hf : b.fighter? target = some f) (alive : f.isAlive = true)
    (positive : Binary.le amount (.finite 0) = false) :
    b.hurt target amount =
      ((f.takeHit amount).1, (b.setFighter target (f.takeHit amount).2.2).emitAll
        (.damaged target (f.takeHit amount).1 ::
          (f.takeHit amount).2.1.map fun k => .buffExpired target k)) := by
  simp only [hurt, positive, Bool.false_eq_true, if_false, hf, alive, if_true]
  rfl

/-- A hit changes nothing if the amount is not above zero, or there is nobody who lives. Else it
accounts for every point, tells what it did and which buffs are gone, and touches nobody else. -/
theorem hurt_accounts (b : Battle) (target : FighterId) (amount : Single) :
    (Binary.le amount (.finite 0) = true ∨ b.isAlive target = false →
      b.hurt target amount = ({}, b)) ∧
    ∀ f, b.fighter? target = some f → f.isAlive = true → Binary.le amount (.finite 0) = false →
      ∃ damage f' gone, Fighter.Rounds (f.buffs.incoming amount).1 damage ∧
        f.Accounts (max 0 damage) (b.hurt target amount).1 f' ∧
        f.buffs.Worn (b.hurt target amount).1.lost gone f'.buffs ∧
        (b.hurt target amount).2.fighter? target = some f' ∧
        (b.hurt target amount).2.events.toList = b.events.toList ++
          .damaged target (b.hurt target amount).1 :: gone.map (fun k => .buffExpired target k) ∧
        b.OnlyFighter target (b.hurt target amount).2 := by
  constructor
  · rintro (le | dead)
    · exact hurt_of_le le target b
    · exact hurt_of_isAlive dead amount
  · intro f hf alive positive
    rw [hurt_eq hf alive positive]
    refine ⟨_, _, _, Fighter.rounds_roundAmount _, Fighter.accounts_takeHit alive amount,
      f.worn_takeHit amount, ?_, ?_, onlyFighter_setFighter b target _ _⟩
    · rw [fighter?_emitAll, fighter?_setFighter _ hf, if_pos rfl]
    · rw [events_emitAll, events_setFighter]

/-- The player's turn of a battle between these fighters. -/
def staged (player : Fighter) (foes : List Fighter) : Battle :=
  { settings := {}
    phase := .playerTurn
    player := { Player.fresh 1 {} {} with fighter := player }
    enemies := foes.map fun fighter =>
      { fighter, monster := { id := "dummy", name := "Dummy", hp := 50 }, behavior := none
        skills := [] }
    chance := .ofSeed 7
    pool := [] }

/-- An enemy with a shield, a weakness, fear and a blessing that has run out. -/
def brittle : Fighter :=
  { id := .enemy 0, hp := 10, maxHp := 50, shield := 3
    buffs := ⟨[⟨.blessed (.finite 5), 1, 0⟩, ⟨.fragile (.finite 50), 1, 2⟩, ⟨.feared 4, 1, 2⟩]⟩ }

/-- The weakness turns a hit for 6 into one for 9: the shield takes 3 of it. -/
theorem hurt_accounts_brittle :
    ∃ damage f' gone, Fighter.Rounds (brittle.buffs.incoming (.finite 6)).1 damage ∧
      brittle.Accounts (max 0 damage) { absorbed := 3, lost := 6 } f' ∧
      brittle.buffs.Worn 6 gone f'.buffs ∧
      ((staged (.fresh .player 30) [brittle]).hurt (.enemy 0) (.finite 6)).2.events.toList =
        .damaged (.enemy 0) { absorbed := 3, lost := 6 } ::
          gone.map fun k => .buffExpired (.enemy 0) k := by
  obtain ⟨damage, f', gone, rounded, points, worn, _, events, _⟩ :=
    (hurt_accounts (staged (.fresh .player 30) [brittle]) (.enemy 0) (.finite 6)).2 brittle rfl
      rfl (by decide +kernel)
  have report : ((staged (.fresh .player 30) [brittle]).hurt (.enemy 0) (.finite 6)).1 =
      { absorbed := 3, lost := 6 } := by decide +kernel
  rw [report] at points worn events
  exact ⟨damage, f', gone, rounded, points, worn, events⟩

-- The blessing has run out and goes.
example : ((staged (.fresh .player 30) [brittle]).hurt (.enemy 0) (.finite 6)).2.events.toList =
    [.damaged (.enemy 0) { absorbed := 3, lost := 6 }, .buffExpired (.enemy 0) .blessed] := by
  decide +kernel

end Battle
end CardBattle
