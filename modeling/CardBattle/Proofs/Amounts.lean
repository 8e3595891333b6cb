import CardBattle.Proofs.Echoing
import CardBattle.Proofs.Falls

/-!
# CardBattle.Proofs.Amounts

The amounts of a battle stay within their bounds, and so the rules may compute with integers of 32
bits. Sums that can leave the range stop at its end, `Amount.saturate`; the other sums never leave
it.

* `Fighter.Ranged`, `Player.Ranged`, `Battle.Ranged`: the bounds, `Step.ranged` and `Steps.ranged`
  that steps keep them.
* `Fighter.checkedHit`, `Fighter.checkedMend`, `Player.checkedSpend`, `Battle.checkedPay`,
  `Frame.checkedRepeats`: the rules as a machine does them that answers nothing once a sum is no
  amount. Within the bounds they answer what the rules answer.
* `Session.exact_run`: all this holds at any time of a battle that has been started.
-/

namespace CardBattle

open Relation

namespace Amount

/-- The sum, if it is an amount. -/
def checked (n : Int) : Option Int := if least ≤ n ∧ n ≤ greatest then some n else none

instance (n : Int) : Decidable (InRange n) :=
  inferInstanceAs (Decidable (least ≤ n ∧ n ≤ greatest))

theorem checked_of_inRange {n : Int} (h : InRange n) : checked n = some n := if_pos h

theorem checked_of_le {n : Int} (h : 0 ≤ n) (h' : n ≤ greatest) : checked n = some n := by
  refine checked_of_inRange ⟨?_, h'⟩
  simp only [least]
  omega

theorem eq_of_checked {n m : Int} (h : checked n = some m) : m = n := by
  simp only [checked] at h
  split at h
  · exact (Option.some.inj h).symm
  · cases h

theorem toNat_lt_of_checked {cost remaining rest : Int} (covered : 0 < cost ∧ cost ≤ remaining)
    (h : checked (remaining - cost) = some rest) : rest.toNat < remaining.toNat := by
  have eq := eq_of_checked h
  omega

/-- The opposite of a positive amount is an amount. -/
theorem InRange.checked_neg {n : Int} (h : InRange n) (pos : 0 < n) : checked (-n) = some (-n) := by
  refine checked_of_inRange ?_
  simp only [InRange, least, greatest] at *
  omega

-- The least amount has no opposite.
example : checked (-least) = none := by decide

theorem InRange.max_le {m n : Int} (h : InRange n) (hm : m ≤ greatest) : max m n ≤ greatest :=
  Int.max_le.mpr ⟨hm, h.2⟩

end Amount

/-! ## Fighters -/

/-- The bounds of a fighter's amounts. -/
structure Fighter.Ranged (f : Fighter) : Prop where
  maxHp_pos : 1 ≤ f.maxHp
  maxHp_le : f.maxHp ≤ Amount.greatest
  hp_nonneg : 0 ≤ f.hp
  hp_le_maxHp : f.hp ≤ f.maxHp
  shield_nonneg : 0 ≤ f.shield
  shield_le : f.shield ≤ Amount.greatest

namespace Fighter

theorem ranged_fresh (id : FighterId) {n : Int} (h : Amount.InRange n) : (fresh id n).Ranged := by
  have low : 1 ≤ max 1 n := Int.le_max_left _ _
  have top : max 1 n ≤ Amount.greatest := h.max_le (by decide)
  have zero : (0 : Int) ≤ Amount.greatest := by decide
  exact ⟨low, top, Int.le_trans (by decide) low, Int.le_refl _, Int.le_refl 0, zero⟩

/-- Whatever is read as a number, what it is rounded to is an amount. -/
theorem rounded_bounds (x : Single) :
    0 ≤ max 0 (roundAmount x) ∧ max 0 (roundAmount x) ≤ Amount.greatest := by
  have inRange : Amount.InRange (roundAmount x) :=
    Binary.roundWithin_le (by decide) (by decide) x
  exact ⟨Int.le_max_left _ _, inRange.max_le (by decide)⟩

/-- The shield takes what it can of a hit; answers what it took and what is left. -/
def absorb? (f : Fighter) (n : Int) : Option (Int × Int × Fighter) := do
  let absorbed := min f.shield (max 0 n)
  let shield ← Amount.checked (f.shield - absorbed)
  let left ← Amount.checked (n - absorbed)
  return (absorbed, left, { f with shield })

/-- Takes hit points away, down to 0; answers how many. -/
def loseHp? (f : Fighter) (n : Int) : Option (Int × Fighter) := do
  let lost := min f.hp (max 0 n)
  let hp ← Amount.checked (f.hp - lost)
  return (lost, { f with hp })

/-- Gives hit points back, up to their maximum; answers how many. -/
def restoreHp? (f : Fighter) (n : Int) : Option (Int × Fighter) := do
  let missing ← Amount.checked (f.maxHp - f.hp)
  let restored := min missing (max 0 n)
  let hp ← Amount.checked (f.hp + restored)
  return (restored, { f with hp })

/-- `takeHit`, with its sums checked. -/
def checkedHit (f : Fighter) (x : Single) : Option (HitReport × List BuffKind × Fighter) := do
  let (modified, buffs) := f.buffs.incoming x
  let (absorbed, left, f) ← { f with buffs }.absorb? (max 0 (roundAmount modified))
  let (lost, f) ← f.loseHp? left
  let buffs := if 0 < lost then f.buffs.record lost else f.buffs
  let (expired, buffs) := buffs.prune
  return ({ absorbed, lost, killed := !f.isAlive }, expired, { f with buffs })

/-- `mend`, with its sums checked. -/
def checkedMend (f : Fighter) (x : Single) : Option (Int × Fighter) :=
  f.restoreHp? (if f.buffs.has .cursed then 0 else max 0 (roundAmount x))

variable {f : Fighter} {n : Int}

namespace Ranged

theorem withBuffs (hf : f.Ranged) (l : Ledger) : { f with buffs := l }.Ranged :=
  ⟨hf.maxHp_pos, hf.maxHp_le, hf.hp_nonneg, hf.hp_le_maxHp, hf.shield_nonneg, hf.shield_le⟩

theorem withHp (hf : f.Ranged) (h : 0 ≤ n) (h' : n ≤ f.maxHp) : { f with hp := n }.Ranged :=
  ⟨hf.maxHp_pos, hf.maxHp_le, h, h', hf.shield_nonneg, hf.shield_le⟩

theorem withShield (hf : f.Ranged) (h : 0 ≤ n) (h' : n ≤ Amount.greatest) :
    { f with shield := n }.Ranged :=
  ⟨hf.maxHp_pos, hf.maxHp_le, hf.hp_nonneg, hf.hp_le_maxHp, h, h'⟩

theorem absorb (hf : f.Ranged) (h : 0 ≤ n) :
    { f with shield := f.shield - min f.shield n }.Ranged := by
  have low := hf.shield_nonneg
  have high := hf.shield_le
  exact hf.withShield (by omega) (by omega)

theorem loseHp (hf : f.Ranged) (h : 0 ≤ n) : { f with hp := f.hp - min f.hp n }.Ranged := by
  have low := hf.hp_nonneg
  have high := hf.hp_le_maxHp
  exact hf.withHp (by omega) (by omega)

theorem restoreHp (hf : f.Ranged) (h : 0 ≤ n) :
    { f with hp := f.hp + min (f.maxHp - f.hp) n }.Ranged := by
  have low := hf.hp_nonneg
  have high := hf.hp_le_maxHp
  exact hf.withHp (by omega) (by omega)

theorem checked_shield (hf : f.Ranged) : Amount.checked f.shield = some f.shield :=
  Amount.checked_of_le hf.shield_nonneg hf.shield_le

theorem checked_hp (hf : f.Ranged) : Amount.checked f.hp = some f.hp :=
  Amount.checked_of_le hf.hp_nonneg (Int.le_trans hf.hp_le_maxHp hf.maxHp_le)

end Ranged

theorem absorb?_eq (hf : f.Ranged) (h : 0 ≤ n) (h' : n ≤ Amount.greatest) :
    f.absorb? n =
      some (min f.shield n, n - min f.shield n,
        { f with shield := f.shield - min f.shield n }) := by
  have low := hf.shield_nonneg
  have shield : Amount.checked (f.shield - min f.shield n) = some (f.shield - min f.shield n) :=
    (hf.absorb h).checked_shield
  have left : Amount.checked (n - min f.shield n) = some (n - min f.shield n) :=
    Amount.checked_of_le (by omega) (by omega)
  simp [absorb?, Int.max_eq_right h, shield, left]

theorem loseHp?_eq (hf : f.Ranged) (h : 0 ≤ n) :
    f.loseHp? n = some (min f.hp n, { f with hp := f.hp - min f.hp n }) := by
  have hp : Amount.checked (f.hp - min f.hp n) = some (f.hp - min f.hp n) :=
    (hf.loseHp h).checked_hp
  simp [loseHp?, Int.max_eq_right h, hp]

theorem restoreHp?_eq (hf : f.Ranged) (h : 0 ≤ n) :
    f.restoreHp? n =
      some (min (f.maxHp - f.hp) n, { f with hp := f.hp + min (f.maxHp - f.hp) n }) := by
  have low := hf.hp_nonneg
  have high := hf.hp_le_maxHp
  have top := hf.maxHp_le
  have missing : Amount.checked (f.maxHp - f.hp) = some (f.maxHp - f.hp) :=
    Amount.checked_of_le (by omega) (by omega)
  have hp : Amount.checked (f.hp + min (f.maxHp - f.hp) n) =
      some (f.hp + min (f.maxHp - f.hp) n) :=
    (hf.restoreHp h).checked_hp
  simp [restoreHp?, Int.max_eq_right h, missing, hp]

/-- Neither the shield nor the hit points nor what is left of a hit leave the range. -/
theorem checkedHit_eq (hf : f.Ranged) (x : Single) : f.checkedHit x = some (f.takeHit x) := by
  obtain ⟨low, high⟩ := rounded_bounds (f.buffs.incoming x).1
  simp only [checkedHit, takeHit]
  generalize max 0 (roundAmount (f.buffs.incoming x).1) = damage at low high ⊢
  have struck := hf.withBuffs (f.buffs.incoming x).2
  have left : 0 ≤ damage - min f.shield damage := by omega
  simp [absorb?_eq struck low high, loseHp?_eq (struck.absorb low) left, isAlive]

theorem ranged_takeHit (hf : f.Ranged) (x : Single) : (f.takeHit x).2.2.Ranged := by
  have low := (rounded_bounds (f.buffs.incoming x).1).1
  simp only [takeHit]
  generalize max 0 (roundAmount (f.buffs.incoming x).1) = damage at low ⊢
  have left : 0 ≤ damage - min f.shield damage := by omega
  exact ((hf.absorb low).loseHp left).withBuffs _

theorem wanted_nonneg (f : Fighter) (x : Single) :
    0 ≤ if f.buffs.has .cursed then 0 else max 0 (roundAmount x) := by
  split
  · exact Int.le_refl 0
  · exact (rounded_bounds x).1

theorem checkedMend_eq (hf : f.Ranged) (x : Single) : f.checkedMend x = some (f.mend x) :=
  restoreHp?_eq hf (f.wanted_nonneg x)

theorem ranged_mend (hf : f.Ranged) (x : Single) : (f.mend x).2.Ranged :=
  hf.restoreHp (f.wanted_nonneg x)

end Fighter

theorem Fighter.Change.ranged {id : FighterId} {f f' : Fighter} {es : List Event}
    (h : f.Change id es f') (hf : f.Ranged) : f'.Ranged := by
  cases h with
  | hit x _ => exact ranged_takeHit hf x
  | mend x _ => exact ranged_mend hf x
  | apply _ => exact hf.withBuffs _
  | cleanse n => exact hf.withBuffs _
  | settle _ => exact hf.withBuffs _

theorem Fighter.Change.maxHp {id : FighterId} {f f' : Fighter} {es : List Event}
    (h : f.Change id es f') : f'.maxHp = f.maxHp := by
  cases h <;> rfl

/-! ## Means of the player -/

/-- The bounds of the player's gauges and action points. -/
structure Player.Ranged (p : Player) : Prop where
  angel_nonneg : 0 ≤ p.angel
  angel_le : p.angel ≤ Settings.gaugeMax
  demon_nonneg : 0 ≤ p.demon
  demon_le : p.demon ≤ Settings.gaugeMax
  points_nonneg : 0 ≤ p.actionPoints
  points_le : p.actionPoints ≤ Amount.greatest
  maxPoints_nonneg : 0 ≤ p.maxActionPoints
  maxPoints_le : p.maxActionPoints ≤ Amount.greatest

namespace Player

/-- `spendAction?`, with its sum checked. -/
def checkedSpend (p : Player) (cost : Int) : Option (Option Player) :=
  if p.actionPoints < cost then some none
  else do
    let actionPoints ← Amount.checked (p.actionPoints - max 0 cost)
    return some { p with actionPoints }

variable {p q : Player}

theorem ranged_fresh (maxHp : Int) (piles : Piles) {settings : Settings}
    (h : Amount.InRange settings.maxActionPoints) : (fresh maxHp piles settings).Ranged := by
  have gauge := Settings.clampGauge_bounds settings.gaugeDefault
  have zero : (0 : Int) ≤ Amount.greatest := by decide
  exact ⟨gauge.1, gauge.2, gauge.1, gauge.2, Int.le_refl 0, zero, Int.le_max_left _ _,
    h.max_le zero⟩

theorem ranged_shift (hp : p.Ranged) (g : Gauge) (delta : Int) : (p.shift g delta).Ranged := by
  cases g with
  | angel =>
    have gauge := Settings.clampGauge_bounds (Amount.saturate (p.angel + delta))
    exact ⟨gauge.1, gauge.2, hp.demon_nonneg, hp.demon_le, hp.points_nonneg, hp.points_le,
      hp.maxPoints_nonneg, hp.maxPoints_le⟩
  | demon =>
    have gauge := Settings.clampGauge_bounds (Amount.saturate (p.demon + delta))
    exact ⟨hp.angel_nonneg, hp.angel_le, gauge.1, gauge.2, hp.points_nonneg, hp.points_le,
      hp.maxPoints_nonneg, hp.maxPoints_le⟩

theorem ranged_shifts (shifts : List (Gauge × Int)) (hp : p.Ranged) :
    (shifts.foldl (fun p (s : Gauge × Int) => p.shift s.1 s.2) p).Ranged := by
  induction shifts generalizing p with
  | nil => exact hp
  | cons s ss ih => exact ih (ranged_shift hp s.1 s.2)

/-- Fighter and piles do not matter. -/
theorem Ranged.withRest (hp : p.Ranged) (fighter : Fighter) (piles : Piles) :
    { p with fighter, piles }.Ranged :=
  ⟨hp.angel_nonneg, hp.angel_le, hp.demon_nonneg, hp.demon_le, hp.points_nonneg, hp.points_le,
    hp.maxPoints_nonneg, hp.maxPoints_le⟩

theorem Ranged.withPoints (hp : p.Ranged) {n : Int} (h : 0 ≤ n) (h' : n ≤ Amount.greatest) :
    { p with actionPoints := n }.Ranged :=
  ⟨hp.angel_nonneg, hp.angel_le, hp.demon_nonneg, hp.demon_le, h, h', hp.maxPoints_nonneg,
    hp.maxPoints_le⟩

theorem spent_nonneg {cost : Int} (hp : p.Ranged) (h : ¬ p.actionPoints < cost) :
    0 ≤ p.actionPoints - max 0 cost ∧ p.actionPoints - max 0 cost ≤ Amount.greatest := by
  have low := hp.points_nonneg
  have high := hp.points_le
  omega

theorem checkedSpend_eq (hp : p.Ranged) (cost : Int) :
    p.checkedSpend cost = some (p.spendAction? cost) := by
  simp only [checkedSpend, spendAction?]
  split
  · rfl
  · rename_i enough
    have bounds := spent_nonneg hp enough
    simp [Amount.checked_of_le bounds.1 bounds.2]

theorem Budget.ranged (h : p.Budget q) (hp : p.Ranged) : q.Ranged := by
  cases h with
  | gain n =>
    have sum := Amount.saturate_inRange (p.actionPoints + n)
    exact hp.withPoints (Int.le_max_left _ _) (sum.max_le (by decide))
  | @spend cost _ h =>
    simp only [spendAction?] at h
    split at h
    · cases h
    · rename_i enough
      cases h
      have bounds := spent_nonneg hp enough
      exact hp.withPoints bounds.1 bounds.2
  | reset => exact hp.withPoints hp.maxPoints_nonneg hp.maxPoints_le

end Player

/-! ## Battles -/

/-- The bounds of all amounts in a battle; each fighter carries its own identity. -/
structure Battle.Ranged (b : Battle) : Prop where
  named : b.Named
  fighters : ∀ id f, b.fighter? id = some f → f.Ranged
  player : b.player.Ranged

theorem Move.rangedPlayer {b b' : Battle} (h : Move b b') (hb : b.player.Ranged) :
    b'.player.Ranged := by
  cases h with
  | @fighter id f f' es _ _ =>
    obtain ⟨fighter, enemies, eq⟩ := b.exists_setFighter_eq id f'
    rw [Battle.emitAll_eq, eq]
    exact hb.withRest fighter b.player.piles
  | piles _ =>
    rw [Battle.emitAll_eq]
    exact hb.withRest b.player.fighter _
  | gauges shifts => exact Player.ranged_shifts shifts hb
  | points h => exact h.ranged hb
  | enqueue _ => exact hb
  | tick => exact hb
  | remark _ => exact hb
  | choose id =>
    simp only [Battle.chooseIntent]
    split
    · exact hb
    · rw [Battle.emit, Battle.player_updateEnemy]
      exact hb
  | cast _ _ =>
    rw [Battle.emit, Battle.player_updateEnemy]
    exact hb

theorem Step.rangedPlayer {b b' : Battle} (h : Step b b') (hb : b.player.Ranged) :
    b'.player.Ranged := by
  cases h with
  | handover _ =>
    rw [Battle.emitAll_eq]
    exact hb.withRest b.player.fighter _
  | stage h =>
    cases h with
    | move h => exact h.rangedPlayer hb
    | sweep =>
      rw [Battle.emitAll_eq]
      exact hb.withRest b.player.fighter _
    | opening _ => exact hb
    | playerTurn => exact hb
    | enemyTurn => exact hb
    | ending _ => exact hb

theorem Step.ranged {b b' : Battle} (h : Step b b') (hb : b.Ranged) : b'.Ranged := by
  have fighters := h.fighters (P := fun _ f => f.Ranged)
    (fun _ _ _ _ change hf => change.ranged hf) hb.fighters
  exact ⟨h.named hb.named, fighters, h.rangedPlayer hb.player⟩

theorem Steps.ranged {b b' : Battle} (h : Steps b b') (hb : b.Ranged) : b'.Ranged := by
  induction h with
  | refl => exact hb
  | tail _ last ih => exact last.ranged ih

theorem Moves.ranged {b b' : Battle} (h : Moves b b') (hb : b.Ranged) : b'.Ranged :=
  h.stages.steps.ranged hb

/-- The largest hit points never change. -/
theorem Step.maxHp {b b' : Battle} (h : Step b b') (id : FighterId) :
    (b'.fighter? id).map Fighter.maxHp = (b.fighter? id).map Fighter.maxHp := by
  obtain ⟨es, deals⟩ := h.deals
  cases deals with
  | aside _ _ same => rw [same]
  | @change j f f' _ hf change =>
    rw [Battle.fighter?_emitAll, Battle.fighter?_setFighter f' hf]
    split
    · rename_i eq
      rw [eq, hf, Option.map_some, Option.map_some, change.maxHp]
    · rfl

namespace Battle

/-- `pay?`, with its sums checked. -/
def checkedPay (caster : FighterId) (meter : Meter) (cost : Int) (b : Battle) :
    Option (Option Battle) :=
  match caster with
  | .enemy _ => some none
  | .player =>
    match meter with
    | .angel =>
      if b.player.angel < cost then some none
      else do
        let delta ← Amount.checked (-cost)
        return some (b.shiftGauge .angel delta).emitGauges
    | .demon =>
      if b.player.demon < cost then some none
      else do
        let delta ← Amount.checked (-cost)
        return some (b.shiftGauge .demon delta).emitGauges
    | .actionPoints => do
      let spent ← b.player.checkedSpend cost
      return spent.map fun player => { b with player }.emitActionPoints

theorem checkedPay_eq {b : Battle} (hb : b.player.Ranged) (caster : FighterId) (meter : Meter)
    {cost : Int} (pos : 0 < cost) (h : Amount.InRange cost) :
    b.checkedPay caster meter cost = some (b.pay? caster meter cost) := by
  cases caster with
  | enemy _ => rfl
  | player =>
    cases meter with
    | angel =>
      simp only [checkedPay, pay?, h.checked_neg pos]
      split <;> rfl
    | demon =>
      simp only [checkedPay, pay?, h.checked_neg pos]
      split <;> rfl
    | actionPoints =>
      simp only [checkedPay, pay?, Player.checkedSpend_eq hb]
      cases b.player.spendAction? cost <;> rfl

end Battle

/-! ## Repetition -/

namespace Frame

/-- Pays and runs the slots as long as the rest of a budget covers the cost. The rest is counted
down, and the payments are checked. -/
def checkedRepeats (echo : Echo) (frame : Frame) (slots : List Slot) (meter : Meter) (cost : Int)
    (remaining : Int) (p : Progress) : Option Progress :=
  if covered : 0 < cost ∧ cost ≤ remaining then
    match p.battle.checkedPay frame.caster meter cost with
    | none => none
    | some none => some p
    | some (some b) =>
      match left : Amount.checked (remaining - cost) with
      | none => none
      | some rest =>
        have := Amount.toNat_lt_of_checked covered left
        frame.checkedRepeats echo slots meter cost rest
          (frame.runSlots echo slots { p with battle := b })
  else some p
termination_by remaining.toNat

/-- `runRepeatSlot`, with its sums checked. -/
def checkedRepeatSlot (echo : Echo) (frame : Frame) (s : Slot) (rest : List Slot) (p : Progress) :
    Option Progress :=
  match frame.effect? p s with
  | some (.spendRepeat meter cost budget) =>
    frame.checkedRepeats echo rest meter cost budget p
  | _ => some p

theorem repeatBound_of_uncovered {cost remaining : Int} (h : ¬ (0 < cost ∧ cost ≤ remaining)) :
    repeatBound cost remaining = 0 := by
  by_cases pos : 0 < cost
  · exact repeatBound_of_lt (by omega)
  · exact if_pos (Int.not_lt.mp pos)

/-- What is left of a budget is an amount. By induction on the payments that it covers; after each
of them the slots keep the bounds. -/
theorem checkedRepeats_eq {echo : Echo} (he : echo.Moving) (frame : Frame) (slots : List Slot)
    (meter : Meter) {cost remaining : Int} (costs : Amount.InRange cost)
    (left : Amount.InRange remaining) {p : Progress} (ranged : p.battle.Ranged) :
    frame.checkedRepeats echo slots meter cost remaining p =
      some (frame.runRepeats echo slots meter cost (repeatBound cost remaining) p) := by
  generalize covers : repeatBound cost remaining = n
  induction n generalizing remaining p with
  | zero =>
    have uncovered : ¬ (0 < cost ∧ cost ≤ remaining) := by
      rintro ⟨pos, covered⟩
      rw [repeatBound_of_le pos covered] at covers
      cases covers
    rw [checkedRepeats, dif_neg uncovered, runRepeats]
  | succ n ih =>
    have covered : 0 < cost ∧ cost ≤ remaining := by
      by_contra uncovered
      rw [repeatBound_of_uncovered uncovered] at covers
      cases covers
    rw [repeatBound_of_le covered.1 covered.2, Nat.add_right_cancel_iff] at covers
    have less : Amount.InRange (remaining - cost) := by
      simp only [Amount.InRange, Amount.least] at *
      omega
    rw [checkedRepeats, dif_pos covered, runRepeats,
      Battle.checkedPay_eq ranged.player frame.caster meter covered.1 costs]
    cases paid : p.battle.pay? frame.caster meter cost with
    | none => rfl
    | some b =>
      have ran := runSlots_moves he frame slots { p with battle := b }
      have afterwards := ran.ranged (Moves.ranged (.single (Battle.pay?_deed paid).move) ranged)
      simp only
      split
      · rename_i outside
        rw [Amount.checked_of_inRange less] at outside
        cases outside
      · rename_i rest inside
        rw [Amount.eq_of_checked inside]
        exact ih less afterwards covers

theorem checkedRepeatSlot_eq {echo : Echo} (he : echo.Moving) (frame : Frame) {s : Slot}
    (kind : s.kind = .spendRepeat) (rest : List Slot) {p : Progress} (ranged : p.battle.Ranged) :
    frame.checkedRepeatSlot echo s rest p = some (frame.runRepeatSlot echo s rest p) := by
  rw [checkedRepeatSlot, runRepeatSlot_eq]
  cases found : frame.effect? p s with
  | none => rfl
  | some effect =>
    have read := read_of_effect? found
    rw [kind] at read
    obtain ⟨meter, cost, budget, rfl, costs, left⟩ := Effect.spendRepeat_of_read read
    exact checkedRepeats_eq he frame rest meter costs left ranged

end Frame

/-! ## Sessions -/

/-- The amounts that a battle is started from are amounts. Nothing is asked of the texts. -/
structure Catalog.Given (c : Catalog) (settings : Settings) (foes : List Foe) : Prop where
  playerMaxHp : Amount.InRange settings.playerMaxHp
  maxActionPoints : Amount.InRange settings.maxActionPoints
  monsters : ∀ m ∈ c.monsters.items, Amount.InRange m.hp
  foes : ∀ foe ∈ foes, ∀ n, foe.hp = some n → Amount.InRange n

namespace Battle

/-- The amounts are within their bounds, and no sum of the rules leaves the range: computed with
checks, each rule answers what it answers without. -/
structure Exact (b : Battle) : Prop where
  ranged : b.Ranged
  costs : ∀ c ∈ b.player.piles.all, 0 ≤ c.cost
  hits : ∀ id f, b.fighter? id = some f → ∀ x, f.checkedHit x = some (f.takeHit x)
  mends : ∀ id f, b.fighter? id = some f → ∀ x, f.checkedMend x = some (f.mend x)
  spends : ∀ cost, b.player.checkedSpend cost = some (b.player.spendAction? cost)
  pays : ∀ caster meter cost, 0 < cost → Amount.InRange cost →
    b.checkedPay caster meter cost = some (b.pay? caster meter cost)
  repeats : ∀ (frame : Frame) (s : Slot), s.kind = .spendRepeat → ∀ links rest killed,
    frame.checkedRepeatSlot (Frame.echo links) s rest { battle := b, killed } =
      some (frame.runRepeatSlot (Frame.echo links) s rest { battle := b, killed })

theorem Ranged.exact {b : Battle} (h : b.Ranged) : b.Exact where
  ranged := h
  costs c _ := c.cost_nonneg
  hits id f hf := Fighter.checkedHit_eq (h.fighters id f hf)
  mends id f hf := Fighter.checkedMend_eq (h.fighters id f hf)
  spends := Player.checkedSpend_eq h.player
  pays caster meter _ := checkedPay_eq h.player caster meter
  repeats frame _ kind links rest _ :=
    Frame.checkedRepeatSlot_eq (Frame.echo_moving links) frame kind rest h

theorem ranged_of_build {c : Catalog} {settings : Settings} {seed : UInt64} {deck : List String}
    {foes : List Foe} {b : Battle} (given : c.Given settings foes)
    (h : build c settings seed deck foes = .ok b) : b.Ranged := by
  refine ⟨named_of_build h, ?_, ?_⟩
  · intro id f hf
    obtain ⟨n, rfl, ⟨_, rfl⟩ | ⟨foe, there, m, hm, rfl⟩⟩ := fresh_of_build h hf
    · exact Fighter.ranged_fresh id given.playerMaxHp
    · refine Fighter.ranged_fresh id ?_
      cases hp : foe.hp with
      | none => exact given.monsters m (List.mem_of_find?_eq_some hm)
      | some n => exact given.foes foe there n hp
  · obtain ⟨_, _, _, _, _, rfl⟩ := build_eq_ok h
    exact Player.ranged_fresh _ _ given.maxActionPoints

end Battle

namespace Session

/-- A battle that is started goes on from its build by steps, and so does every session. -/
theorem later_of_start {c : Catalog} {settings : Settings} {seed : UInt64} {deck : List String}
    {foes : List Foe} {b : Battle} (h : Battle.start c settings seed deck foes = .ok b) :
    ∃ b₀, Battle.build c settings seed deck foes = .ok b₀ ∧
      ∀ calls, Later { battle := b₀ } (run { battle := b } calls) := by
  obtain ⟨b₀, built, eq⟩ := Battle.exists_build_of_start h
  have begun : Stages b₀ b := by
    rw [eq]
    exact Battle.begin_stages (Battle.phase_of_build built)
  have later : Later { battle := b₀ } { battle := b } :=
    invariant_steps (P := Later { battle := b₀ }) (fun _ _ step before => .step before step)
      begun.steps .now
  exact ⟨b₀, built, fun calls => later.trans (later_run (idle_start h) calls)⟩

/-- From the build of a started battle on, at any time of any session, within its calls too, the
amounts are within their bounds, the largest hit points are those of the build, and no sum leaves
the range of the amounts. -/
theorem exact_run {c : Catalog} {settings : Settings} {seed : UInt64} {deck : List String}
    {foes : List Foe} {b : Battle} (given : c.Given settings foes)
    (h : Battle.start c settings seed deck foes = .ok b) :
    ∃ b₀, Battle.build c settings seed deck foes = .ok b₀ ∧
      (∀ calls, Later { battle := b₀ } (run { battle := b } calls)) ∧
      ∀ s, Later { battle := b₀ } s → s.battle.Exact ∧
        ∀ id, (s.battle.fighter? id).map Fighter.maxHp = (b₀.fighter? id).map Fighter.maxHp := by
  obtain ⟨b₀, built, later⟩ := later_of_start h
  refine ⟨b₀, built, later, fun s afterwards => ⟨Battle.Ranged.exact ?_, fun id => ?_⟩⟩
  · exact afterwards.invariant (P := fun s => s.battle.Ranged) (fun _ _ step hs => step.ranged hs)
      (fun _ hs => ⟨hs.named, hs.fighters, hs.player⟩) (Battle.ranged_of_build given built)
  · exact afterwards.invariant
      (P := fun s => (s.battle.fighter? id).map Fighter.maxHp = (b₀.fighter? id).map Fighter.maxHp)
      (fun _ _ step hs => (step.maxHp id).trans hs) (fun _ hs => hs) rfl

/-- A battle that is started from the ends of the range. -/
theorem exact_extreme :
    ∃ settings : Settings, settings.playerMaxHp = Amount.least ∧
      settings.maxActionPoints = Amount.greatest ∧ settings.gaugeDefault = Amount.least ∧
      Sample.catalog.Given settings [{ monsterId := "slime", hp := some Amount.least }] ∧
      ∃ b b₀, Battle.start Sample.catalog settings 1 ["prayer", "strike"]
          [{ monsterId := "slime", hp := some Amount.least }] = .ok b ∧
        Battle.build Sample.catalog settings 1 ["prayer", "strike"]
          [{ monsterId := "slime", hp := some Amount.least }] = .ok b₀ ∧
        (run { battle := b } [.play 0 none, .endTurn]).battle.Exact := by
  let settings : Settings :=
    { playerMaxHp := Amount.least, maxActionPoints := Amount.greatest
      gaugeDefault := Amount.least }
  have starts : ∃ b, Battle.start Sample.catalog settings 1 ["prayer", "strike"]
      [{ monsterId := "slime", hp := some Amount.least }] = .ok b :=
    Battle.exists_start _ _ nofun nofun rfl rfl
  obtain ⟨b, started⟩ := starts
  have given : Sample.catalog.Given settings
      [{ monsterId := "slime", hp := some Amount.least }] := by
    refine ⟨by decide, by decide, by decide +kernel, ?_⟩
    rintro foe there n hp
    rw [List.mem_singleton.mp there, Option.some.injEq] at hp
    rw [← hp]
    decide
  obtain ⟨b₀, built, later, exact⟩ := exact_run given started
  exact ⟨settings, rfl, rfl, rfl, given, b, b₀, started, built,
    (exact _ (later [.play 0 none, .endTurn])).1⟩

end Session
end CardBattle
