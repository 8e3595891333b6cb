import CardBattle.Delayed
import Mathlib.Data.List.Basic

/-!
# CardBattle.Proofs.Schedule

When delayed hits are due. Every hit that was ever pushed has a date, the number of the tick that
returns it. The queue at any time consists of the pushed hits whose date has not come, in the order
of their pushes, and a tick returns those whose date it is, in that order too.

* `Pushed`, `Pushed.date`: a push, and when its hit is due.
* `DelayQueue.dueAt`, `DelayQueue.waitingAt`: what a tick returns and leaves, from the pushes.
* `DelayQueue.tick_waitingAt`: one tick.
* `DelayQueue.follow_empty`: pushes and ticks in any order.
-/

namespace CardBattle

namespace DelayedHit

/-- A hit some ticks later. Only its counter differs. -/
def after (k : Nat) (h : DelayedHit) : DelayedHit :=
  { h with remaining := max Amount.least (h.remaining - k) }

theorem after_zero {h : DelayedHit} (delay : Amount.InRange h.remaining) : h.after 0 = h := by
  have same : max Amount.least (h.remaining - (0 : Nat)) = h.remaining := by
    simp only [Amount.InRange] at delay
    omega
  simp only [after, same]

/-- The counter stops at the least amount, as it does when it is counted down one by one. -/
theorem wait_after {h : DelayedHit} (delay : Amount.InRange h.remaining) (k : Nat) :
    (h.after k).wait = h.after (k + 1) := by
  have same : Amount.saturate (max Amount.least (h.remaining - k) - 1) =
      max Amount.least (h.remaining - (k + 1 : Nat)) := by
    simp only [Amount.InRange, Amount.saturate, Amount.least, Amount.greatest] at *
    omega
  simp only [after, wait, same]

theorem isDue_after (h : DelayedHit) (k : Nat) : (h.after k).isDue = decide (h.remaining ≤ k) := by
  have due : max Amount.least (h.remaining - k) ≤ 0 ↔ h.remaining ≤ k := by
    simp only [Amount.least]
    omega
  simp only [isDue, after, due]

end DelayedHit

/-- A hit that was pushed, with the number of ticks before. -/
structure Pushed where
  time : Nat
  hit : DelayedHit

namespace Pushed

/-- The tick that returns the hit: as many ticks after its push as it was delayed, and at least
one. -/
def date (p : Pushed) : Nat := p.time + max 1 p.hit.remaining.toNat

/-- The hit after a tick. -/
def hitAt (n : Nat) (p : Pushed) : DelayedHit := p.hit.after (n - p.time)

theorem time_lt_date (p : Pushed) : p.time < p.date := by
  simp only [date]
  omega

/-- Of what has been waiting, the next tick finds due what has its number as date. -/
theorem isDue_hitAt {n : Nat} {p : Pushed} (early : p.time ≤ n) (waiting : n < p.date) :
    (p.hitAt (n + 1)).isDue = decide (p.date = n + 1) := by
  rw [hitAt, DelayedHit.isDue_after, decide_eq_decide]
  simp only [date] at waiting ⊢
  omega

end Pushed

namespace DelayQueue

/-- What tick `n` returns. -/
def dueAt (n : Nat) (log : List Pushed) : List DelayedHit :=
  (log.filter fun p => p.date = n).map (Pushed.hitAt n)

/-- What is in the queue after tick `n`. -/
def waitingAt (n : Nat) (log : List Pushed) : List DelayedHit :=
  (log.filter fun p => n < p.date).map (Pushed.hitAt n)

theorem dueAt_append (n : Nat) (log more : List Pushed) :
    dueAt n (log ++ more) = dueAt n log ++ dueAt n more := by
  simp only [dueAt, List.filter_append, List.map_append]

theorem waitingAt_append (n : Nat) (log more : List Pushed) :
    waitingAt n (log ++ more) = waitingAt n log ++ waitingAt n more := by
  simp only [waitingAt, List.filter_append, List.map_append]

/-- Hits pushed after the last tick are in the queue as they were pushed. -/
theorem waitingAt_pushed (n : Nat) (hits : List DelayedHit)
    (delays : ∀ h ∈ hits, Amount.InRange h.remaining) :
    waitingAt n (hits.map (Pushed.mk n)) = hits := by
  induction hits with
  | nil => rfl
  | cons h hs ih =>
    rw [List.forall_mem_cons] at delays
    have waits : n < (Pushed.mk n h).date := (Pushed.mk n h).time_lt_date
    have fresh : (Pushed.mk n h).hitAt n = h := by
      rw [Pushed.hitAt, Nat.sub_self, DelayedHit.after_zero delays.1]
    have rest := ih delays.2
    simp only [waitingAt] at rest
    simp only [waitingAt, List.map_cons, List.filter_cons, waits, decide_true, if_true, fresh, rest]

/-- Nothing is due before it is pushed. -/
theorem dueAt_of_late {n : Nat} {log : List Pushed} (late : ∀ p ∈ log, n ≤ p.time) :
    dueAt n log = [] := by
  rw [dueAt, List.map_eq_nil_iff, List.filter_eq_nil_iff]
  intro p hp
  have before := late p hp
  have after := p.time_lt_date
  simp only [decide_eq_true_eq]
  omega

/-- One tick: what has its date is returned, and the rest waits on. -/
theorem tick_waitingAt {n : Nat} {log : List Pushed} (early : ∀ p ∈ log, p.time ≤ n)
    (delays : ∀ p ∈ log, Amount.InRange p.hit.remaining) :
    tick (waitingAt n log) = (dueAt (n + 1) log, waitingAt (n + 1) log) := by
  have waited : (waitingAt n log).map DelayedHit.wait =
      (log.filter fun p => n < p.date).map (Pushed.hitAt (n + 1)) := by
    rw [waitingAt, List.map_map]
    refine List.map_congr_left fun p hp => ?_
    have there := (List.mem_filter.mp hp).1
    have step : n + 1 - p.time = n - p.time + 1 := by
      have before := early p there
      omega
    rw [Function.comp_apply, Pushed.hitAt, DelayedHit.wait_after (delays p there), Pushed.hitAt,
      step]
  have due : ∀ p ∈ log, ((p.hitAt (n + 1)).isDue && decide (n < p.date)) =
      decide (p.date = n + 1) := by
    intro p hp
    by_cases waiting : n < p.date
    · rw [Pushed.isDue_hitAt (early p hp) waiting]
      simp [waiting]
    · have other : ¬ p.date = n + 1 := by omega
      simp [waiting, other]
  have left : ∀ p ∈ log, (!(p.hitAt (n + 1)).isDue && decide (n < p.date)) =
      decide (n + 1 < p.date) := by
    intro p hp
    by_cases waiting : n < p.date
    · rw [Pushed.isDue_hitAt (early p hp) waiting, ← decide_not, ← Bool.decide_and,
        decide_eq_decide]
      omega
    · have other : ¬ n + 1 < p.date := by omega
      simp [waiting, other]
  rw [tick, List.partition_eq_filter_filter, waited, List.filter_map, List.filter_map,
    List.filter_filter, List.filter_filter, dueAt, waitingAt]
  congr 2
  · exact List.filter_congr due
  · exact List.filter_congr left

/-! ## Pushes and ticks in any order -/

inductive Action where
  | push (h : DelayedHit)
  | tick

/-- What the ticks return one after the other, and the queue afterwards. -/
def follow : List Action → DelayQueue → List (List DelayedHit) × DelayQueue
  | [], q => ([], q)
  | .push h :: actions, q => follow actions (q.push h)
  | .tick :: actions, q =>
    let (due, q) := q.tick
    let (later, q) := follow actions q
    (due :: later, q)

/-- The pushes among actions, after a number of ticks. -/
def pushes (n : Nat) : List Action → List Pushed
  | [] => []
  | .push h :: actions => ⟨n, h⟩ :: pushes n actions
  | .tick :: actions => pushes (n + 1) actions

def ticks : List Action → Nat
  | [] => 0
  | .push _ :: actions => ticks actions
  | .tick :: actions => ticks actions + 1

theorem time_of_mem_pushes {n : Nat} {actions : List Action} {p : Pushed}
    (h : p ∈ pushes n actions) : n ≤ p.time := by
  induction actions generalizing n with
  | nil => cases h
  | cons a actions ih =>
    cases a with
    | push _ =>
      obtain rfl | there := List.mem_cons.mp h
      · exact Nat.le_refl n
      · exact ih there
    | tick => exact Nat.le_of_succ_le (ih h)

/-- By induction on the actions; the queue is always what waits of the pushes so far. -/
theorem follow_waitingAt {actions : List Action}
    (valid : ∀ h, .push h ∈ actions → Amount.InRange h.remaining) {n : Nat} {log : List Pushed}
    (early : ∀ p ∈ log, p.time ≤ n) (delays : ∀ p ∈ log, Amount.InRange p.hit.remaining) :
    follow actions (waitingAt n log) =
      ((List.range (ticks actions)).map fun k => dueAt (n + k + 1) (log ++ pushes n actions),
        waitingAt (n + ticks actions) (log ++ pushes n actions)) := by
  induction actions generalizing n log with
  | nil => simp [follow, ticks, pushes]
  | cons a actions ih =>
    have valid' : ∀ h, .push h ∈ actions → Amount.InRange h.remaining := fun h there =>
      valid h (List.mem_cons_of_mem a there)
    cases a with
    | push h =>
      have delay := valid h List.mem_cons_self
      have pushed : push (waitingAt n log) h = waitingAt n (log ++ [⟨n, h⟩]) := by
        have last := waitingAt_pushed n [h] (by simpa using delay)
        rw [waitingAt_append, push]
        exact congrArg (waitingAt n log ++ ·) last.symm
      have early' : ∀ p ∈ log ++ [⟨n, h⟩], p.time ≤ n := by
        rw [List.forall_mem_append]
        exact ⟨early, by simp⟩
      have delays' : ∀ p ∈ log ++ [(⟨n, h⟩ : Pushed)], Amount.InRange p.hit.remaining := by
        rw [List.forall_mem_append]
        exact ⟨delays, by simpa using delay⟩
      rw [follow, pushed, ih valid' early' delays']
      simp only [ticks, pushes, List.append_assoc, List.singleton_append]
    | tick =>
      have early' : ∀ p ∈ log, p.time ≤ n + 1 := fun p hp => Nat.le_succ_of_le (early p hp)
      have nothing : dueAt (n + 1) (pushes (n + 1) actions) = [] :=
        dueAt_of_late fun p hp => time_of_mem_pushes hp
      simp only [follow, tick_waitingAt early delays, ih valid' early' delays, ticks, pushes,
        List.range_succ_eq_map, List.map_cons, List.map_map, Nat.add_zero, dueAt_append, nothing,
        List.append_nil, Prod.mk.injEq, List.cons.injEq, true_and]
      constructor
      · refine List.map_congr_left fun k _ => ?_
        simp only [Function.comp_apply, Nat.succ_eq_add_one]
        rw [Nat.add_right_comm n 1 k, Nat.add_assoc n k 1]
      · rw [Nat.add_assoc, Nat.add_comm 1]

/-- From an empty queue each pushed hit is returned at its date, or waits for it. -/
theorem follow_empty {actions : List Action}
    (valid : ∀ h, .push h ∈ actions → Amount.InRange h.remaining) :
    follow actions [] =
      ((List.range (ticks actions)).map fun k => dueAt (k + 1) (pushes 0 actions),
        waitingAt (ticks actions) (pushes 0 actions)) := by
  have all := follow_waitingAt valid (n := 0) (List.forall_mem_nil _) (List.forall_mem_nil _)
  simp only [Nat.zero_add, List.nil_append] at all
  exact all

end DelayQueue
end CardBattle
