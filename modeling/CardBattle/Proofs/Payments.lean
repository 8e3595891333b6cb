import CardBattle.Content.Sample
import CardBattle.Proofs.Amounts
import CardBattle.Proofs.KillFlag
import CardBattle.Proofs.Quiet

/-!
# CardBattle.Proofs.Payments

How often slots are repeated, and what is paid for it. A repetition is a row of rounds; each round
pays the cost and then runs the slots behind the one that repeats. The rounds end when the budget
does not cover another one, or when the meter does not.

* `Player.level`: what a meter shows; `level_execute` says which effects leave it alone.
* `Rounds`: rounds and their payments, without a bound on their number.
* `Rounds.exact`: every payment takes the cost and leaves no debt.
* `Rounds.steady`: the payments if nothing else changes the meter.
* `Repeated`, `Repetition`: what follows when a slot that repeats is reached.
* `exists_repetition`: the slots of a frame that repeats.
-/

namespace CardBattle

open Relation

/-! ## Meters -/

def Gauge.meter : Gauge → Meter
  | .angel => .angel
  | .demon => .demon

namespace Player

/-- What a meter shows. -/
def level (p : Player) : Meter → Int
  | .angel => p.angel
  | .demon => p.demon
  | .actionPoints => p.actionPoints

variable {p : Player} {m : Meter}

theorem Ranged.level_nonneg (hp : p.Ranged) (m : Meter) : 0 ≤ p.level m := by
  cases m with
  | angel => exact hp.angel_nonneg
  | demon => exact hp.demon_nonneg
  | actionPoints => exact hp.points_nonneg

/-- Within its bounds a gauge shows what it is set to. -/
theorem clampGauge_of_bounds {n : Int} (low : 0 ≤ n) (high : n ≤ Settings.gaugeMax) :
    Settings.clampGauge (Amount.saturate n) = n := by
  simp only [Settings.clampGauge, Settings.gaugeMax, Amount.saturate, Amount.least,
    Amount.greatest] at *
  omega

theorem level_shift_of_ne {gauge : Gauge} (h : gauge.meter ≠ m) (delta : Int) :
    (p.shift gauge delta).level m = p.level m := by
  cases gauge <;> cases m <;> first | rfl | exact absurd rfl h

theorem level_shift (hp : p.Ranged) {gauge : Gauge} {delta : Int} (pos : 0 ≤ delta)
    (covered : delta ≤ p.level gauge.meter) :
    (p.shift gauge (-delta)).level gauge.meter = p.level gauge.meter - delta := by
  have low := hp.level_nonneg gauge.meter
  cases gauge with
  | angel =>
    have high := hp.angel_le
    simp only [Gauge.meter, level] at covered low
    exact clampGauge_of_bounds (by omega) (by omega)
  | demon =>
    have high := hp.demon_le
    simp only [Gauge.meter, level] at covered low
    exact clampGauge_of_bounds (by omega) (by omega)

end Player

namespace Battle

variable {b b' : Battle} {m : Meter}

/-- A payment takes the cost from a meter that covers it. -/
theorem level_pay? {caster : FighterId} {cost : Int} (hb : b.player.Ranged) (pos : 0 < cost)
    (h : b.pay? caster m cost = some b') :
    cost ≤ b.player.level m ∧ b'.player.level m = b.player.level m - cost := by
  simp only [pay?] at h
  split at h
  · cases h
  · split at h
    · split at h
      · cases h
      · rename_i covered
        cases h
        have enough : cost ≤ b.player.level Gauge.angel.meter := Int.not_lt.mp covered
        exact ⟨enough, Player.level_shift hb (Int.le_of_lt pos) enough⟩
    · split at h
      · cases h
      · rename_i covered
        cases h
        have enough : cost ≤ b.player.level Gauge.demon.meter := Int.not_lt.mp covered
        exact ⟨enough, Player.level_shift hb (Int.le_of_lt pos) enough⟩
    · split at h
      · cases h
      · rename_i spent
        cases h
        simp only [Player.spendAction?] at spent
        split at spent
        · cases spent
        · rename_i covered
          cases spent
          have rest : max 0 cost = cost := Int.max_eq_right (Int.le_of_lt pos)
          exact ⟨Int.not_lt.mp covered, by simp only [Player.level, emitActionPoints, emit, rest]⟩

/-- The player can pay exactly what the meter covers. -/
theorem pay?_eq_none_iff {cost : Int} :
    b.pay? .player m cost = none ↔ b.player.level m < cost := by
  cases m with
  | angel => simp only [pay?, Player.level]; split <;> simp_all
  | demon => simp only [pay?, Player.level]; split <;> simp_all
  | actionPoints =>
    simp only [pay?, Player.spendAction?, Player.level]
    by_cases short : b.player.actionPoints < cost <;> simp [short]

end Battle

theorem Moves.rangedPlayer {b b' : Battle} (h : Moves b b') (hb : b.player.Ranged) :
    b'.player.Ranged := by
  induction h with
  | refl => exact hb
  | tail _ last ih => exact last.rangedPlayer ih

/-! ## Effects that leave a meter alone -/

namespace Effect

/-- The effect can change the meter. -/
def changes (m : Meter) : Effect → Bool
  | .shiftGauge gauge delta => gauge.meter = m && delta ≠ 0
  | .gainAction amount => m = .actionPoints && amount ≠ 0
  | _ => false

def isCastMore : Effect → Bool
  | .castMore _ _ => true
  | _ => false

end Effect

/-- Whatever the slot does, it neither echoes a card nor changes the meter. -/
def Slot.Spares (m : Meter) (s : Slot) : Prop :=
  ∀ e, Effect.read s.kind s.value = .ok (some e) → e.isCastMore = false ∧ e.changes m = false

namespace Frame

open Battle

variable {echo : Echo} {frame : Frame} {m : Meter}

/-- An effect that is not about the player's means leaves every meter alone. -/
theorem level_of_part (frame : Frame) (p : Progress) {e : Effect} (other : e.part ≠ .means) :
    (frame.execute mute p e).battle.player.level m = p.battle.player.level m := by
  obtain ⟨_, _, eq⟩ := (frame.execute_alters p e).exists_player_eq other
  rw [eq]
  cases m <;> rfl

theorem level_execute (frame : Frame) {p : Progress} (hp : p.battle.player.Ranged) {e : Effect}
    (still : e.changes m = false) :
    (frame.execute mute p e).battle.player.level m = p.battle.player.level m := by
  cases e with
  | shiftGauge gauge delta =>
    by_cases other : gauge.meter = m
    · have zero : delta = 0 := by simpa [Effect.changes, other] using still
      have low := hp.level_nonneg gauge.meter
      have same := Player.level_shift hp (Int.le_refl 0) low
      rw [Int.neg_zero, Int.sub_zero] at same
      rw [zero, ← other]
      exact same
    · exact Player.level_shift_of_ne other delta
  | gainAction n =>
    simp only [execute]
    split
    · rfl
    · cases m with
      | angel => rfl
      | demon => rfl
      | actionPoints =>
        have zero : n = 0 := by simpa [Effect.changes] using still
        have low := hp.points_nonneg
        have high := hp.points_le
        simp only [Progress.map, emitActionPoints, emit, Player.level, Player.gainAction, zero,
          Amount.saturate, Amount.least, Amount.greatest] at *
        omega
  | _ =>
    refine frame.level_of_part p fun part => ?_
    cases part

theorem level_runSlot {p : Progress} (hp : p.battle.player.Ranged) {s : Slot}
    (spares : s.Spares m) :
    (frame.runSlot echo p s).battle.player.level m = p.battle.player.level m := by
  rw [runSlot_eq_execute]
  cases effect : frame.effect? p s with
  | none => rfl
  | some e =>
    obtain ⟨plain, still⟩ := spares e (read_of_effect? effect)
    have apart : ∀ side distance, e ≠ .castMore side distance := by
      rintro side distance rfl
      cases plain
    change (frame.execute echo p e).battle.player.level m = _
    rw [execute_eq_mute frame p apart]
    exact level_execute frame hp still

theorem level_runSlots (he : echo.Moving) {p : Progress} (hp : p.battle.player.Ranged)
    {ss : List Slot} (spares : ∀ s ∈ ss, s.Spares m) :
    (frame.runSlots echo ss p).battle.player.level m = p.battle.player.level m := by
  simp only [runSlots]
  induction ss generalizing p with
  | nil => rfl
  | cons s ss ih =>
    rw [List.forall_mem_cons] at spares
    exact (ih ((runSlot_moves he frame p s).rangedPlayer hp) spares.2).trans
      (level_runSlot hp spares.1)

end Frame

/-! ## Rounds -/

open CardBattle.Frame

/-- What a meter shows before and after a payment. -/
structure Payment where
  before : Int
  after : Int

/-- Rounds of a repetition: a payment from the meter, then the slots. -/
inductive Rounds (echo : Echo) (frame : Frame) (ss : List Slot) (m : Meter) (cost : Int) :
    Progress → List Payment → Progress → Prop where
  | done {p : Progress} : Rounds echo frame ss m cost p [] p
  | round {p q : Progress} {b : Battle} {rest : List Payment}
      (paid : p.battle.pay? frame.caster m cost = some b)
      (more : Rounds echo frame ss m cost (frame.runSlots echo ss { p with battle := b }) rest q) :
      Rounds echo frame ss m cost p (⟨p.battle.player.level m, b.player.level m⟩ :: rest) q

namespace Rounds

open Battle

variable {echo : Echo} {frame : Frame} {ss : List Slot} {m : Meter} {cost : Int} {p q : Progress}
  {payments : List Payment}

/-- The way from one round to the next keeps the player's means within their bounds. -/
theorem ranged_round (he : echo.Moving) {b : Battle} (hp : p.battle.player.Ranged)
    (paid : p.battle.pay? frame.caster m cost = some b) (ss : List Slot) :
    b.player.Ranged ∧
      (frame.runSlots echo ss { p with battle := b }).battle.player.Ranged := by
  have after := (pay?_deed paid).move.rangedPlayer hp
  exact ⟨after, (runSlots_moves he frame ss { p with battle := b }).rangedPlayer after⟩

theorem of_nil (h : Rounds echo frame ss m cost p [] q) : q = p := by
  cases h
  rfl

/-- Enemies cannot pay. -/
theorem of_enemy (h : Rounds echo frame ss m cost p payments q) {i : Nat}
    (enemy : frame.caster = .enemy i) : payments = [] ∧ q = p := by
  cases h with
  | done => exact ⟨rfl, rfl⟩
  | round paid _ =>
    rw [enemy] at paid
    cases paid

/-- Whatever the slots do, a payment takes the cost and the meter does not fall below 0. -/
theorem exact (h : Rounds echo frame ss m cost p payments q) (he : echo.Moving)
    (hp : p.battle.player.Ranged) (pos : 0 < cost) :
    ∀ x ∈ payments, x.after = x.before - cost ∧ 0 ≤ x.after := by
  induction h with
  | done => exact nofun
  | round paid _ ih =>
    obtain ⟨after, next⟩ := ranged_round he hp paid ss
    exact List.forall_mem_cons.mpr
      ⟨⟨(level_pay? hp pos paid).2, after.level_nonneg m⟩, ih next⟩

/-- If the slots leave the meter alone, the payments alone lower it. -/
theorem steady (h : Rounds echo frame ss m cost p payments q) (he : echo.Moving)
    (hp : p.battle.player.Ranged) (pos : 0 < cost) (spares : ∀ s ∈ ss, s.Spares m) :
    q.battle.player.level m = p.battle.player.level m - payments.length * cost ∧
      payments = (List.range payments.length).map fun j : Nat =>
        ⟨p.battle.player.level m - j * cost, p.battle.player.level m - (j + 1) * cost⟩ := by
  induction h with
  | done => exact ⟨by simp, rfl⟩
  | @round p q b rest paid _ ih =>
    obtain ⟨after, next⟩ := ranged_round he hp paid ss
    obtain ⟨last, payments⟩ := ih next
    have lower : (frame.runSlots echo ss { p with battle := b }).battle.player.level m =
        p.battle.player.level m - cost :=
      (level_runSlots he after spares).trans (level_pay? hp pos paid).2
    rw [lower] at last payments
    refine ⟨?_, ?_⟩
    · rw [last, List.length_cons, Nat.cast_add_one, Int.add_mul]
      omega
    · have first : b.player.level m = p.battle.player.level m - cost := (level_pay? hp pos paid).2
      rw [List.length_cons, List.range_succ_eq_map, List.map_cons, List.map_map, first]
      refine congrArg₂ _ (by simp) (payments.trans (List.map_congr_left fun j _ => ?_))
      simp only [Function.comp_apply, Nat.succ_eq_add_one, Nat.cast_add_one, Int.add_mul,
        Payment.mk.injEq]
      omega

end Rounds

/-! ## Frames that repeat -/

namespace Frame

open Battle

/-- No visits of echoes. -/
def unseen : Trace := fun _ _ _ => []

/-- The slots of the frame itself, in the order in which its resolution comes on them. -/
def passes (echo : Echo) (frame : Frame) (p : Progress) : List Slot :=
  (frame.cardVisits echo unseen p).map Visit.slot

variable {echo : Echo} {trace : Trace} {frame : Frame}

theorem slots_slotsVisits (ss : List Slot) (p : Progress) :
    (frame.slotsVisits echo unseen ss p).map Visit.slot = ss := by
  induction ss generalizing p with
  | nil => rfl
  | cons s ss ih =>
    have alone : frame.slotVisits unseen p s = [⟨frame, s, p⟩] := by
      simp only [slotVisits, unseen]
      split <;> rfl
    rw [slotsVisits, alone, List.map_append, ih]
    rfl

/-- The repetition makes rounds. It stops early only if the meter does not cover the cost. -/
theorem exists_rounds (ss : List Slot) (m : Meter) (cost : Int) (n : Nat) (p : Progress) :
    ∃ payments, Rounds echo frame ss m cost p payments (frame.runRepeats echo ss m cost n p) ∧
      (frame.repeatsVisits echo unseen ss m cost n p).map Visit.slot =
        (List.replicate payments.length ss).flatten ∧
      payments.length ≤ n ∧
      (payments.length < n →
        (frame.runRepeats echo ss m cost n p).battle.pay? frame.caster m cost = none) := by
  induction n generalizing p with
  | zero => exact ⟨[], .done, rfl, Nat.le_refl 0, fun less => absurd less (Nat.lt_irrefl 0)⟩
  | succ n ih =>
    cases paid : p.battle.pay? frame.caster m cost with
    | none =>
      have still : frame.runRepeats echo ss m cost (n + 1) p = p := by simp only [runRepeats, paid]
      rw [still]
      exact ⟨[], .done, by simp only [repeatsVisits, paid]; rfl, Nat.zero_le _, fun _ => paid⟩
    | some b =>
      obtain ⟨payments, rounds, visits, few, stopped⟩ :=
        ih (frame.runSlots echo ss { p with battle := b })
      have again : frame.runRepeats echo ss m cost (n + 1) p =
          frame.runRepeats echo ss m cost n (frame.runSlots echo ss { p with battle := b }) := by
        simp only [runRepeats, paid]
      rw [again]
      refine ⟨_, .round paid rounds, ?_, Nat.succ_le_succ few,
        fun less => stopped (Nat.lt_of_succ_lt_succ less)⟩
      simp only [repeatsVisits, paid, List.map_append, slots_slotsVisits, visits,
        List.length_cons, List.replicate_succ, List.flatten_cons]

/-! ### Where the visits lie -/

/-- The visits of an echo lie on its way. -/
def Trace.Reached (trace : Trace) : Prop :=
  ∀ frame place p, ∀ v ∈ trace frame place p, Moves p.battle v.before.battle

theorem slotVisits_reached (ht : trace.Reached) (p : Progress) (s : Slot) :
    ∀ v ∈ frame.slotVisits trace p s, Moves p.battle v.before.battle := by
  intro v hv
  obtain rfl | hv := List.mem_cons.mp hv
  · exact .refl
  · split at hv
    · exact absurd hv List.not_mem_nil
    · exact ht frame _ p v hv

theorem slotsVisits_reached (he : echo.Moving) (ht : trace.Reached) (ss : List Slot)
    (p : Progress) : ∀ v ∈ frame.slotsVisits echo trace ss p, Moves p.battle v.before.battle := by
  induction ss generalizing p with
  | nil => exact List.forall_mem_nil _
  | cons s ss ih =>
    intro v hv
    obtain here | later := List.mem_append.mp hv
    · exact slotVisits_reached ht p s v here
    · exact (runSlot_moves he frame p s).trans (ih _ v later)

theorem repeatsVisits_reached (he : echo.Moving) (ht : trace.Reached) (ss : List Slot) (m : Meter)
    (cost : Int) (n : Nat) (p : Progress) :
    ∀ v ∈ frame.repeatsVisits echo trace ss m cost n p, Moves p.battle v.before.battle := by
  induction n generalizing p with
  | zero => exact List.forall_mem_nil _
  | succ n ih =>
    intro v hv
    simp only [repeatsVisits] at hv
    split at hv
    · exact absurd hv List.not_mem_nil
    · rename_i b paid
      have first : Moves p.battle b := .single (pay?_deed paid).move
      obtain here | later := List.mem_append.mp hv
      · exact first.trans (slotsVisits_reached he ht ss _ v here)
      · exact first.trans ((runSlots_moves he frame ss { p with battle := b }).trans (ih _ v later))

theorem cardVisits_reached (he : echo.Moving) (ht : trace.Reached) (p : Progress) :
    ∀ v ∈ frame.cardVisits echo trace p, Moves p.battle v.before.battle := by
  intro v hv
  obtain plain | hv := List.mem_append.mp hv
  · exact slotsVisits_reached he ht _ p v plain
  · refine (runSlots_moves he frame frame.plainSlots p).trans ?_
    split at hv
    · exact absurd hv List.not_mem_nil
    · obtain rfl | hv := List.mem_cons.mp hv
      · exact .refl
      · split at hv
        · exact repeatsVisits_reached he ht _ _ _ _ _ v hv
        · exact absurd hv List.not_mem_nil

/-- By induction on the links of the chain that are left. -/
theorem echoVisits_reached (links : Nat) : (echoVisits links).Reached := by
  induction links with
  | zero => exact fun _ _ _ => List.forall_mem_nil _
  | succ links ih =>
    intro frame place p v hv
    simp only [echoVisits] at hv
    split at hv
    · exact absurd hv List.not_mem_nil
    · exact .head (.remark rfl) (cardVisits_reached (echo_moving links) ih _ v hv)

/-! ### The repetition -/

theorem repeatBound_eq {cost : Int} (pos : 0 < cost) (budget : Int) :
    (repeatBound cost budget : Int) = max budget 0 / cost := by
  simp only [repeatBound, Int.not_le.mpr pos, if_false]
  by_cases owed : 0 ≤ budget
  · rw [Int.max_eq_left owed, Int.toNat_of_nonneg (Int.ediv_nonneg owed (Int.le_of_lt pos))]
  · have less : budget / cost < 0 := Int.ediv_neg_of_neg_of_pos (Int.not_le.mp owed) pos
    rw [Int.max_eq_right (by omega), Int.zero_ediv]
    omega

theorem repeatBound_of_not_pos {cost budget : Int} (h : ¬ 0 < cost) :
    repeatBound cost budget = 0 := if_pos (Int.not_lt.mp h)

variable {before rest : List Slot} {s : Slot}

/-- The parts of a frame whose slot `s` is the first that repeats. -/
theorem parts_eq (slots : frame.slots = before ++ s :: rest)
    (plain : ∀ t ∈ before, t.kind ≠ .spendRepeat) (repeating : s.kind = .spendRepeat) :
    frame.plainSlots = before ∧ frame.repeatSlot? = some (s, rest) := by
  have single : ∀ t ∈ before, (!repeats t) = true := by
    intro t ht
    simp [repeats, plain t ht]
  have stop : (!repeats s) = false := by simp [repeats, repeating]
  constructor
  · rw [plainSlots, slots, List.takeWhile_append_of_pos single, List.takeWhile_cons_of_neg
      (by simp [stop]), List.append_nil]
  · rw [repeatSlot?, slots, List.dropWhile_append_of_pos single, List.dropWhile_cons_of_neg
      (by simp [stop])]

/-- What follows when the slot `s` is reached: rounds if its effect is to repeat the slots behind it,
and else nothing. -/
inductive Repeated (echo : Echo) (frame : Frame) (s : Slot) (rest : List Slot) (q : Progress) :
    List Payment → Progress → Prop where
  | idle (other : ∀ m cost budget, frame.effect? q s ≠ some (.spendRepeat m cost budget)) :
      Repeated echo frame s rest q [] q
  | rounds {m : Meter} {cost budget : Int} {payments : List Payment} {q' : Progress}
      (effect : frame.effect? q s = some (.spendRepeat m cost budget))
      (rounds : Rounds echo frame rest m cost q payments q')
      (few : payments.length ≤ repeatBound cost budget)
      (stopped : payments.length < repeatBound cost budget →
        q'.battle.pay? frame.caster m cost = none) : Repeated echo frame s rest q payments q'

theorem exists_repeated (slots : frame.slots = before ++ s :: rest)
    (plain : ∀ t ∈ before, t.kind ≠ .spendRepeat) (repeating : s.kind = .spendRepeat)
    (p : Progress) :
    ∃ payments : List Payment,
      frame.passes echo p = before ++ s :: (List.replicate payments.length rest).flatten ∧
      Repeated echo frame s rest (frame.runSlots echo before p) payments
        (frame.runCard echo p) := by
  obtain ⟨first, behind⟩ := parts_eq slots plain repeating
  have run : frame.runCard echo p =
      frame.runRepeatSlot echo s rest (frame.runSlots echo before p) := by
    simp only [runCard, first, behind]
  have visits : frame.passes echo p = before ++ s ::
      ((frame.repeatSlotVisits echo unseen s rest (frame.runSlots echo before p)).tail.map
        Visit.slot) := by
    simp only [passes, cardVisits, first, behind, List.map_append, slots_slotsVisits]
    rfl
  rw [run, visits, runRepeatSlot_eq]
  simp only [repeatSlotVisits, List.tail_cons]
  cases effect : frame.effect? (frame.runSlots echo before p) s with
  | none => exact ⟨[], rfl, .idle (by simp [effect])⟩
  | some e =>
    cases e with
    | spendRepeat m cost budget =>
      obtain ⟨payments, rounds, passes, few, stopped⟩ := exists_rounds rest m cost
        (repeatBound cost budget) (frame.runSlots echo before p)
      exact ⟨payments, by rw [passes], .rounds effect rounds few stopped⟩
    | _ => exact ⟨[], rfl, .idle (by simp [effect])⟩

namespace Repeated

variable {q q' : Progress} {payments : List Payment} {m : Meter} {cost budget : Int}

theorem of_other (h : Repeated echo frame s rest q payments q')
    (other : ∀ m cost budget, frame.effect? q s ≠ some (.spendRepeat m cost budget)) :
    payments = [] ∧ q' = q := by
  cases h with
  | idle => exact ⟨rfl, rfl⟩
  | rounds effect => exact absurd effect (other _ _ _)

theorem of_enemy (h : Repeated echo frame s rest q payments q') {i : Nat}
    (enemy : frame.caster = .enemy i) : payments = [] ∧ q' = q := by
  cases h with
  | idle => exact ⟨rfl, rfl⟩
  | rounds _ rounds => exact rounds.of_enemy enemy

/-- No rounds are rounds, too. -/
theorem rounds_of_read (h : Repeated echo frame s rest q payments q')
    (read : Effect.read s.kind s.value = .ok (some (.spendRepeat m cost budget))) :
    Rounds echo frame rest m cost q payments q' ∧
      payments.length ≤ repeatBound cost budget := by
  cases h with
  | idle => exact ⟨.done, Nat.zero_le _⟩
  | rounds effect rounds few =>
    rw [read_of_effect? effect] at read
    cases read
    exact ⟨rounds, few⟩

theorem pay?_of_lt (h : Repeated echo frame s rest q payments q')
    (effect : frame.effect? q s = some (.spendRepeat m cost budget))
    (early : payments.length < repeatBound cost budget) :
    q'.battle.pay? frame.caster m cost = none := by
  cases h with
  | idle other => exact absurd effect (other _ _ _)
  | rounds effect' _ _ stopped =>
    rw [effect] at effect'
    cases effect'
    exact stopped early

end Repeated

theorem effect?_of_admits {p : Progress} {e : Option Effect} (kind : s.kind ≠ .none)
    (admitted : frame.admits p s = true) (read : Effect.read s.kind s.value = .ok e) :
    frame.effect? p s = e := by
  simp only [effect?, if_neg kind, admitted, if_true, read]

/-- What the slot `s` makes of the slots `rest` behind it: from the progress `q` in which it is
reached to the progress `q'` in which the frame ends. -/
structure Repetition (echo : Echo) (frame : Frame) (s : Slot) (rest : List Slot) (q : Progress)
    (payments : List Payment) (q' : Progress) : Prop where
  /-- Whatever the slots behind do, each payment takes the cost, and the budget covers all. -/
  paid : ∀ m cost budget, Effect.read s.kind s.value = .ok (some (.spendRepeat m cost budget)) →
    Rounds echo frame rest m cost q payments q' ∧
      (∀ x ∈ payments, x.after = x.before - cost ∧ 0 ≤ x.after) ∧
      payments.length * cost ≤ max budget 0
  /-- If the slots behind leave the meter alone, budget and meter alone decide. -/
  counted : ∀ m cost budget,
    Effect.read s.kind s.value = .ok (some (.spendRepeat m cost budget)) → 0 < cost →
      frame.caster = .player → frame.admits q s = true → (∀ t ∈ rest, t.Spares m) →
      let level := q.battle.player.level m
      (payments.length : Int) = min (max budget 0 / cost) (level / cost) ∧
        payments = (List.range payments.length).map
          (fun j : Nat => ⟨level - j * cost, level - (j + 1) * cost⟩) ∧
        q'.battle.player.level m = level - payments.length * cost
  idle : (frame.admits q s = false ∨ (∃ i, frame.caster = .enemy i) ∨
      (∃ fault, Effect.read s.kind s.value = .error fault) ∨
      ∃ m cost budget, Effect.read s.kind s.value = .ok (some (.spendRepeat m cost budget)) ∧
        cost ≤ 0) →
    payments = [] ∧ q' = q

/-- Budget and meter decide how often a cost can be paid. -/
theorem count_eq {cost level budget : Int} {n : Nat} (pos : 0 < cost)
    (few : n ≤ repeatBound cost budget) (covered : n * cost ≤ level)
    (stopped : n < repeatBound cost budget → level - n * cost < cost) :
    (n : Int) = min (max budget 0 / cost) (level / cost) := by
  rw [← repeatBound_eq pos]
  have enough : (n : Int) ≤ level / cost := (Int.le_ediv_iff_mul_le pos).mpr covered
  obtain full | early := Nat.eq_or_lt_of_le few
  · rw [← full, Int.min_eq_left enough]
  · have short := stopped early
    have next : level / cost < n + 1 :=
      (Int.ediv_lt_iff_lt_mul pos).mpr (by rw [Int.add_mul]; omega)
    omega

theorem Repeated.repetition (he : echo.Moving) {q q' : Progress} {payments : List Payment}
    (h : Repeated echo frame s rest q payments q') (kind : s.kind ≠ .none)
    (reached : q.battle.player.Ranged) (final : q'.battle.player.Ranged) :
    Repetition echo frame s rest q payments q' where
  paid := by
    intro m cost budget read
    obtain ⟨rounds, few⟩ := h.rounds_of_read read
    refine ⟨rounds, ?_⟩
    by_cases pos : 0 < cost
    · rw [← Int.ofNat_le, repeatBound_eq pos, Int.le_ediv_iff_mul_le pos] at few
      exact ⟨rounds.exact he reached pos, few⟩
    · rw [repeatBound_of_not_pos pos, Nat.le_zero, List.length_eq_zero_iff] at few
      rw [few]
      exact ⟨List.forall_mem_nil _, by simp⟩
  counted := by
    intro m cost budget read pos player admitted spares
    obtain ⟨rounds, few⟩ := h.rounds_of_read read
    obtain ⟨last, schedule⟩ := rounds.steady he reached pos spares
    have covered := final.level_nonneg m
    refine ⟨count_eq pos few (by omega) fun early => ?_, schedule, last⟩
    have unpaid := h.pay?_of_lt (effect?_of_admits kind admitted read) early
    rw [player] at unpaid
    rw [← last]
    exact pay?_eq_none_iff.mp unpaid
  idle := by
    rintro (refused | ⟨i, enemy⟩ | ⟨fault, malformed⟩ | ⟨m, cost, budget, read, free⟩)
    · refine h.of_other fun _ _ _ effect => ?_
      rw [admits_of_effect? effect] at refused
      cases refused
    · exact h.of_enemy enemy
    · refine h.of_other fun _ _ _ effect => ?_
      rw [read_of_effect? effect] at malformed
      cases malformed
    · obtain ⟨rounds, few⟩ := h.rounds_of_read read
      rw [repeatBound_of_not_pos (Int.not_lt.mpr free), Nat.le_zero,
        List.length_eq_zero_iff] at few
      exact ⟨few, (few ▸ rounds).of_nil⟩

/-- Any card or skill in any state, seen as a frame whose slot `s` is the first that repeats: the
slots before `s` run once and those behind it once for each payment. -/
theorem exists_repetition (links : Nat) {frame : Frame} {before rest : List Slot} {s : Slot}
    (slots : frame.slots = before ++ s :: rest) (plain : ∀ t ∈ before, t.kind ≠ .spendRepeat)
    (repeating : s.kind = .spendRepeat) {p : Progress} (ranged : p.battle.player.Ranged) :
    ∃ payments : List Payment,
      frame.passes (Frame.echo links) p =
        before ++ s :: (List.replicate payments.length rest).flatten ∧
      Repetition (Frame.echo links) frame s rest (frame.runSlots (Frame.echo links) before p)
        payments (frame.runCard (Frame.echo links) p) ∧
      ∀ m, 0 ≤ (frame.runCard (Frame.echo links) p).battle.player.level m ∧
        ∀ v ∈ frame.cardVisits (Frame.echo links) (echoVisits links) p,
          0 ≤ v.before.battle.player.level m := by
  have moving := echo_moving links
  have reached := (runSlots_moves moving frame before p).rangedPlayer ranged
  have final := (runCard_moves moving frame p).rangedPlayer ranged
  have kind : s.kind ≠ .none := by simp [repeating]
  obtain ⟨payments, passes, repeated⟩ := exists_repeated slots plain repeating p
  refine ⟨payments, passes, repeated.repetition moving kind reached final, fun m => ?_⟩
  refine ⟨final.level_nonneg m, fun v visited => ?_⟩
  have moves := cardVisits_reached moving (echoVisits_reached links) p v visited
  exact (moves.rangedPlayer ranged).level_nonneg m

/-- A card that raises the angel gauge and then spends at most 45 of it. -/
def litany : Frame :=
  { caster := .player, target := none
    slots := [Sample.slot .angelUp "10", Sample.slot .spendRepeat "Ametervalue,20,45",
      Sample.slot .demonUp "3"] }

/-- The gauge has 60 to spend, and the budget covers the cost twice. -/
theorem exists_repetition_litany :
    ∃ payments : List Payment,
      litany.passes (Frame.echo 5) ⟨.dealt [] 1, false⟩ =
        [Sample.slot .angelUp "10", Sample.slot .spendRepeat "Ametervalue,20,45",
          Sample.slot .demonUp "3", Sample.slot .demonUp "3"] ∧
      payments = [⟨60, 40⟩, ⟨40, 20⟩] ∧
      (litany.runCard (Frame.echo 5) ⟨.dealt [] 1, false⟩).battle.player.level .angel = 20 := by
  have slots : litany.slots = [Sample.slot .angelUp "10"] ++
      Sample.slot .spendRepeat "Ametervalue,20,45" :: [Sample.slot .demonUp "3"] := rfl
  have ranged : (⟨.dealt [] 1, false⟩ : Progress).battle.player.Ranged := by
    constructor <;> decide
  obtain ⟨payments, passes, repetition, _⟩ := exists_repetition 5 slots (by decide) rfl ranged
  have spares : ∀ t ∈ [Sample.slot .demonUp "3"], t.Spares .angel := by
    have read : Effect.read .demonUp "3" = .ok (some (.shiftGauge .demon 3)) := rfl
    intro t ht e he
    obtain rfl := List.mem_singleton.mp ht
    rw [Sample.slot, read] at he
    cases he
    exact ⟨rfl, rfl⟩
  obtain ⟨count, schedule, last⟩ := repetition.counted .angel 20 45 rfl (by decide) rfl rfl spares
  have level : (litany.runSlots (Frame.echo 5) [Sample.slot .angelUp "10"]
      ⟨.dealt [] 1, false⟩).battle.player.level .angel = 60 := rfl
  rw [level] at count schedule last
  have two : payments.length = 2 := by omega
  rw [two] at passes schedule last
  exact ⟨payments, passes, schedule, last⟩

end Frame
end CardBattle
