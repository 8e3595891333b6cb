import CardBattle.Proofs.Ledger
import Mathlib.Data.List.ReduceOption

/-!
# CardBattle.Proofs.Inert

Inert buffs. A buff whose duration has run out stays in its ledger until the ledger is pruned.
Pruning early changes nothing that can be seen, unless a buff is added over an inert entry of its
kind or a cleansing finds an inert bad entry: these two treat inert entries like active ones.

* `Ledger.Operation`, `Ledger.follow`: operations with prunings in between, and their answers.
* `Thinned`: a list of entries without some of the inert ones. Every operation keeps two ledgers
  in this relation (`Operation.perform_thinned`) and answers both alike.
* `Operation.ClearIn`: no inert entry is in the way of an operation.
* `prune_invisible`: prunings in between cannot be seen if all operations are clear.
* `inert_lends`: an inert entry lends its stacks to a new buff and uses up a cleansing.
-/

namespace CardBattle
namespace Ledger

/-- What can be done with a ledger, other than pruning it. -/
inductive Operation where
  | add (data : BuffData) (stack : Nat) (duration : Int)
  | cleanse (count : Nat)
  | outgoing (amount : Single)
  | incoming (amount : Single)
  | record (lost : Int)
  | drain
  | takeSwift
  | turnStart
  | turnEnd (maxHp : Int)
deriving DecidableEq

inductive Answer where
  | applied (result : Applied)
  | gone (kinds : List BuffKind)
  | amount (x : Single)
  | percent (x : Option Single)
  | reach (r : Option SwiftReach)
  | started (gifts : Nat) (expired : List BuffKind)
  | ticks (ts : List Tick)
  | recorded
deriving DecidableEq

/-- What pruning must not change in an answer. It may decide when an inert kind is reported and
whether a buff counts as new or as refreshed. -/
def Answer.visible : Answer → Answer
  | .applied .refreshed => .applied .added
  | .started gifts _ => .started gifts []
  | answer => answer

def Operation.perform (l : Ledger) : Operation → Answer × Ledger
  | .add data stack duration =>
    let (result, l) := l.add (.make data stack duration)
    (.applied result, l)
  | .cleanse count =>
    let (kinds, l) := l.cleanse count
    (.gone kinds, l)
  | .outgoing x => (.amount (l.outgoing x), l)
  | .incoming x =>
    let (x, l) := l.incoming x
    (.amount x, l)
  | .record lost => (.recorded, l.record lost)
  | .drain =>
    let (x, l) := l.drain
    (.percent x, l)
  | .takeSwift =>
    let (r, l) := l.takeSwift
    (.reach r, l)
  | .turnStart =>
    let (gifts, expired, l) := l.turnStart
    (.started gifts expired, l)
  | .turnEnd maxHp => (.ticks (l.turnEnd maxHp), l)

/-- Operations in a row, with a pruning at each `none`: what can be seen of their answers, and the
ledger afterwards. -/
def follow : List (Option Operation) → Ledger → List Answer × Ledger
  | [], l => ([], l)
  | none :: ops, l => follow ops l.prune.2
  | some op :: ops, l =>
    let (answer, l) := op.perform l
    let (answers, l) := follow ops l
    (answer.visible :: answers, l)

/-- The ledgers that can come about. -/
inductive Reached : Ledger → Prop where
  | empty : Reached {}
  | operate {l : Ledger} (op : Operation) (h : Reached l) : Reached (op.perform l).2
  | prune {l : Ledger} (h : Reached l) : Reached l.prune.2
  | remove {l : Ledger} (kind : BuffKind) (h : Reached l) : Reached (l.remove kind).2

theorem distinct_perform {l : Ledger} (h : l.Distinct) (op : Operation) :
    (op.perform l).2.Distinct := by
  cases op with
  | add data stack duration => exact distinct_add h _
  | cleanse count => exact distinct_cleanse h count
  | outgoing x => exact h
  | incoming x => exact distinct_of_faces (faces_incomingFrom l.entries x) h
  | record lost => exact distinct_of_faces (faces_record l lost) h
  | drain => exact distinct_of_faces (faces_drainFrom l.entries) h
  | takeSwift => exact distinct_of_faces (faces_takeSwiftFrom l.entries) h
  | turnStart =>
    have started : Distinct ⟨l.entries.map turnStarted⟩ := distinct_of_faces (faces_turnStarted l) h
    exact distinct_prune started
  | turnEnd maxHp => exact h

theorem Reached.distinct {l : Ledger} (h : l.Reached) : l.Distinct := by
  induction h with
  | empty => exact List.nodup_nil
  | operate op _ ih => exact distinct_perform ih op
  | prune _ ih => exact distinct_prune ih
  | remove kind _ ih => exact distinct_of_sublist List.eraseP_sublist ih

/-! ## Lists without some inert entries -/

/-- The second list is the first one without some of its inert entries. -/
inductive Thinned : List Buff → List Buff → Prop where
  | nil : Thinned [] []
  | keep {bs cs : List Buff} (b : Buff) (h : Thinned bs cs) : Thinned (b :: bs) (b :: cs)
  | drop {bs cs : List Buff} {b : Buff} (inert : b.isActive = false) (h : Thinned bs cs) :
      Thinned (b :: bs) cs

namespace Thinned

variable {bs cs : List Buff}

theorem refl (bs : List Buff) : Thinned bs bs := by
  induction bs with
  | nil => exact .nil
  | cons b bs ih => exact .keep b ih

theorem sublist (h : Thinned bs cs) : cs.Sublist bs := by
  induction h with
  | nil => exact .refl _
  | keep b _ ih => exact ih.cons_cons b
  | drop _ _ ih => exact ih.cons _

/-- Thinned lists agree on the active entries. -/
theorem filter_isActive (h : Thinned bs cs) :
    bs.filter Buff.isActive = cs.filter Buff.isActive := by
  induction h with
  | nil => rfl
  | keep b _ ih => simp only [List.filter_cons, ih]
  | drop inert _ ih => simp only [List.filter_cons, inert, Bool.false_eq_true, if_false, ih]

/-- The thinner list can be pruned. -/
theorem prune (h : Thinned bs cs) : Thinned bs (cs.filter Buff.isActive) := by
  induction h with
  | nil => exact .nil
  | drop inert _ ih => exact .drop inert ih
  | keep b _ ih =>
    cases active : b.isActive with
    | true => simpa only [List.filter_cons, active, if_true] using ih.keep b
    | false =>
      simpa only [List.filter_cons, active, Bool.false_eq_true, if_false] using ih.drop active

/-- Changing the entries one by one, in a way that wakes no inert one. -/
theorem map {f : Buff → Buff} (wakesNone : ∀ b, b.isActive = false → (f b).isActive = false)
    (h : Thinned bs cs) : Thinned (bs.map f) (cs.map f) := by
  induction h with
  | nil => exact .nil
  | keep b _ ih => exact .keep (f b) ih
  | drop inert _ ih => exact .drop (wakesNone _ inert) ih

theorem append (h : Thinned bs cs) (b : Buff) : Thinned (bs ++ [b]) (cs ++ [b]) := by
  induction h with
  | nil => exact .refl [b]
  | keep c _ ih => exact .keep c ih
  | drop inert _ ih => exact .drop inert ih

/-! ## Operations on thinned lists -/

theorem meet_of_inert {b : Buff} (inert : b.isActive = false) (x : Single) : meet b x = (x, b) := by
  simp only [meet, inert, Bool.false_eq_true, if_false]

theorem incomingFrom (h : Thinned bs cs) (x : Single) :
    (Ledger.incomingFrom bs x).1 = (Ledger.incomingFrom cs x).1 ∧
      Thinned (Ledger.incomingFrom bs x).2 (Ledger.incomingFrom cs x).2 := by
  induction h generalizing x with
  | nil => exact ⟨rfl, .nil⟩
  | keep b _ ih =>
    obtain ⟨same, thinned⟩ := ih (meet b x).1
    exact ⟨same, .keep _ thinned⟩
  | drop inert _ ih =>
    obtain ⟨same, thinned⟩ := ih x
    simp only [Ledger.incomingFrom, meet_of_inert inert]
    exact ⟨same, .drop inert thinned⟩

theorem isActive_recordIn {b : Buff} (inert : b.isActive = false) (lost : Int) :
    (recordIn lost b).isActive = false := by
  simp only [recordIn]
  split
  · simp [inert]
  · exact inert

theorem drainable?_of_inert {b : Buff} (inert : b.isActive = false) : drainable? b = none := by
  simp only [drainable?]
  split
  · simp [inert]
  · rfl

theorem drainFrom (h : Thinned bs cs) :
    (Ledger.drainFrom bs).1 = (Ledger.drainFrom cs).1 ∧
      Thinned (Ledger.drainFrom bs).2 (Ledger.drainFrom cs).2 := by
  induction h with
  | nil => exact ⟨rfl, .nil⟩
  | keep b rest ih =>
    simp only [Ledger.drainFrom]
    split
    · exact ⟨rfl, rest.keep _⟩
    · exact ⟨ih.1, ih.2.keep b⟩
  | drop inert _ ih =>
    simp only [Ledger.drainFrom, drainable?_of_inert inert]
    exact ⟨ih.1, ih.2.drop inert⟩

theorem reach?_of_inert {b : Buff} (inert : b.isActive = false) : reach? b = none := by
  simp only [reach?]
  split
  · simp [inert]
  · rfl

theorem takeSwiftFrom (h : Thinned bs cs) :
    (Ledger.takeSwiftFrom bs).1 = (Ledger.takeSwiftFrom cs).1 ∧
      Thinned (Ledger.takeSwiftFrom bs).2 (Ledger.takeSwiftFrom cs).2 := by
  induction h with
  | nil => exact ⟨rfl, .nil⟩
  | keep b rest ih =>
    simp only [Ledger.takeSwiftFrom]
    split
    · exact ⟨rfl, rest.keep _⟩
    · exact ⟨ih.1, ih.2.keep b⟩
  | drop inert _ ih =>
    simp only [Ledger.takeSwiftFrom, reach?_of_inert inert]
    exact ⟨ih.1, ih.2.drop inert⟩

theorem turnStarted_of_inert {b : Buff} (inert : b.isActive = false) : turnStarted b = b := by
  simp only [turnStarted, inert, Bool.false_eq_true, if_false]

/-- A buff finds the same entry of its kind if no such entry is inert. -/
theorem find?_kind (h : Thinned bs cs) {k : BuffKind}
    (clear : ∀ b ∈ bs, b.kind = k → b.isActive = true) :
    bs.find? (fun b => b.kind = k) = cs.find? (fun b => b.kind = k) := by
  induction h with
  | nil => rfl
  | keep b _ ih =>
    have clear' := fun c hc => clear c (List.mem_cons_of_mem b hc)
    simp only [List.find?_cons, ih clear']
  | @drop bs cs b inert _ ih =>
    have clear' := fun c hc => clear c (List.mem_cons_of_mem b hc)
    have other : ¬ b.kind = k := by
      intro hk
      rw [clear b List.mem_cons_self hk] at inert
      cases inert
    simp [other, ih clear']

theorem mergeInto (h : Thinned bs cs) {b : Buff}
    (clear : ∀ c ∈ bs, c.kind = b.kind → c.isActive = true) :
    Thinned (Ledger.mergeInto b bs) (Ledger.mergeInto b cs) := by
  induction h with
  | nil => exact .nil
  | keep c rest ih =>
    simp only [Ledger.mergeInto]
    split
    · exact rest.keep _
    · exact (ih fun d hd => clear d (List.mem_cons_of_mem c hd)).keep c
  | @drop bs cs c inert _ ih =>
    have other : ¬ c.kind = b.kind := by
      intro hk
      rw [clear c List.mem_cons_self hk] at inert
      cases inert
    simp only [Ledger.mergeInto, if_neg other]
    exact (ih fun d hd => clear d (List.mem_cons_of_mem c hd)).drop inert

theorem cleanseFrom (h : Thinned bs cs) (n : Nat)
    (clear : ∀ b ∈ bs, b.kind.isPositive = false → b.isActive = true) :
    (Ledger.cleanseFrom n bs).1 = (Ledger.cleanseFrom n cs).1 ∧
      Thinned (Ledger.cleanseFrom n bs).2 (Ledger.cleanseFrom n cs).2 := by
  induction h generalizing n with
  | nil => exact ⟨rfl, by simpa only [Ledger.cleanseFrom] using Thinned.nil⟩
  | keep b rest ih =>
    have clear' := fun c hc => clear c (List.mem_cons_of_mem b hc)
    cases n with
    | zero => exact ⟨rfl, rest.keep b⟩
    | succ n =>
      simp only [Ledger.cleanseFrom]
      split
      · exact ⟨(ih (n + 1) clear').1, (ih (n + 1) clear').2.keep b⟩
      · exact ⟨congrArg (b.kind :: ·) (ih n clear').1, (ih n clear').2⟩
  | @drop bs cs b inert rest ih =>
    have clear' := fun c hc => clear c (List.mem_cons_of_mem b hc)
    have good : b.kind.isPositive = true := by
      by_contra bad
      rw [clear b List.mem_cons_self (by simpa using bad)] at inert
      cases inert
    cases n with
    | zero =>
      have none : ∀ ds : List Buff, Ledger.cleanseFrom 0 ds = ([], ds) := by
        intro ds
        cases ds <;> rfl
      rw [none, none]
      exact ⟨rfl, rest.drop inert⟩
    | succ n =>
      simp only [Ledger.cleanseFrom, good, if_true]
      exact ⟨(ih (n + 1) clear').1, (ih (n + 1) clear').2.drop inert⟩

end Thinned

/-! ## Operations in a row -/

/-- No inert entry is in the way: none of the kind that is added, and no bad one at a
cleansing. -/
def Operation.ClearIn (l : Ledger) : Operation → Prop
  | .add data _ _ => ∀ b ∈ l.entries, b.kind = data.kind → b.isActive = true
  | .cleanse _ => ∀ b ∈ l.entries, b.kind.isPositive = false → b.isActive = true
  | _ => True

/-- Every operation of a row is clear when its turn comes. -/
def ClearFor : List Operation → Ledger → Prop
  | [], _ => True
  | op :: ops, l => op.ClearIn l ∧ ClearFor ops (op.perform l).2

instance (l : Ledger) (op : Operation) : Decidable (op.ClearIn l) :=
  match op with
  | .add data _ _ =>
    inferInstanceAs (Decidable (∀ b ∈ l.entries, b.kind = data.kind → b.isActive = true))
  | .cleanse _ =>
    inferInstanceAs (Decidable (∀ b ∈ l.entries, b.kind.isPositive = false → b.isActive = true))
  | .outgoing _ | .incoming _ | .record _ | .drain | .takeSwift | .turnStart | .turnEnd _ =>
    isTrue trivial

theorem active_of_thinned {l m : Ledger} (h : Thinned l.entries m.entries) :
    l.active = m.active := h.filter_isActive

/-- Both ledgers have room, so a buff of a new kind is appended to both. -/
theorem add_thinned {l m : Ledger} (distinct : l.Distinct) (h : Thinned l.entries m.entries)
    {b : Buff} (clear : ∀ c ∈ l.entries, c.kind = b.kind → c.isActive = true) :
    (l.add b).1 = (m.add b).1 ∧ Thinned (l.add b).2.entries (m.add b).2.entries := by
  have room := length_lt_maxBuffs distinct
  have room' := length_lt_maxBuffs (distinct_of_sublist h.sublist distinct)
  have same : l.entry? b.kind = m.entry? b.kind := h.find?_kind clear
  simp only [add, ← same]
  cases l.entry? b.kind with
  | some e => exact ⟨rfl, h.mergeInto clear⟩
  | none =>
    simp only [room, room', if_true]
    exact ⟨trivial, h.append b⟩

/-- At a turn start both ledgers are pruned, and nothing is left to tell them apart. -/
theorem turnStart_thinned {l m : Ledger} (h : Thinned l.entries m.entries) :
    l.turnStart.1 = m.turnStart.1 ∧ l.turnStart.2.2 = m.turnStart.2.2 := by
  have sleeps : ∀ b : Buff, b.isActive = false → (turnStarted b).isActive = false := by
    intro b inert
    rw [Thinned.turnStarted_of_inert inert, inert]
  have started := (h.map sleeps).filter_isActive
  simp only [turnStart, gifts, active_of_thinned h, Ledger.prune, started, and_self]

/-- One operation on a ledger and on a thinner one: the same is seen, and the second stays the
thinner one. -/
theorem Operation.perform_thinned {l m : Ledger} (distinct : l.Distinct)
    (h : Thinned l.entries m.entries) {op : Operation} (clear : op.ClearIn l) :
    (op.perform l).1.visible = (op.perform m).1.visible ∧
      Thinned (op.perform l).2.entries (op.perform m).2.entries := by
  cases op with
  | add data stack duration =>
    obtain ⟨same, thinned⟩ := add_thinned (b := .make data stack duration) distinct h clear
    exact ⟨congrArg (fun r => (Answer.applied r).visible) same, thinned⟩
  | cleanse count =>
    obtain ⟨same, thinned⟩ := h.cleanseFrom count clear
    exact ⟨congrArg Answer.gone same, thinned⟩
  | outgoing x =>
    refine ⟨?_, h⟩
    simp only [Operation.perform, Ledger.outgoing, active_of_thinned h]
  | incoming x =>
    obtain ⟨same, thinned⟩ := h.incomingFrom x
    exact ⟨congrArg Answer.amount same, thinned⟩
  | record lost => exact ⟨rfl, h.map fun b inert => Thinned.isActive_recordIn inert lost⟩
  | drain =>
    obtain ⟨same, thinned⟩ := h.drainFrom
    exact ⟨congrArg Answer.percent same, thinned⟩
  | takeSwift =>
    obtain ⟨same, thinned⟩ := h.takeSwiftFrom
    exact ⟨congrArg Answer.reach same, thinned⟩
  | turnStart =>
    obtain ⟨gifts, same⟩ := turnStart_thinned h
    refine ⟨congrArg (fun n => Answer.started n []) gifts, ?_⟩
    have same' : (Operation.turnStart.perform l).2 = (Operation.turnStart.perform m).2 := same
    rw [same']
    exact .refl _
  | turnEnd maxHp =>
    refine ⟨?_, h⟩
    simp only [Operation.perform, Ledger.turnEnd, active_of_thinned h]

/-- By induction on the row with its prunings: the pruned ledger stays the thinner one. -/
theorem follow_thinned (pruned : List (Option Operation)) {l m : Ledger} (distinct : l.Distinct)
    (h : Thinned l.entries m.entries) (clear : ClearFor pruned.reduceOption l) :
    (follow pruned m).1 = (follow (pruned.reduceOption.map some) l).1 ∧
      Thinned (follow (pruned.reduceOption.map some) l).2.entries (follow pruned m).2.entries := by
  induction pruned generalizing l m with
  | nil => exact ⟨rfl, h⟩
  | cons op ops ih =>
    cases op with
    | none =>
      rw [List.reduceOption_cons_of_none] at clear ⊢
      exact ih (m := m.prune.2) distinct h.prune clear
    | some op =>
      rw [List.reduceOption_cons_of_some] at clear ⊢
      obtain ⟨seen, thinned⟩ := op.perform_thinned distinct h clear.1
      obtain ⟨answers, thinned'⟩ := ih (distinct_perform distinct op) thinned clear.2
      refine ⟨?_, thinned'⟩
      simp only [List.map_cons, follow, answers, seen]

/-! ## What can be seen of a ledger -/

/-- Two ledgers that answer every question alike. -/
structure Alike (l m : Ledger) : Prop where
  active : l.active = m.active
  get : ∀ kind, l.get? kind = m.get? kind
  has : ∀ kind, l.has kind = m.has kind
  positiveCount : l.positiveCount = m.positiveCount
  negativeCount : l.negativeCount = m.negativeCount
  resistance : ∀ element, l.resistance element = m.resistance element
  requirementModifier : l.requirementModifier = m.requirementModifier

theorem get?_eq_find?_active (l : Ledger) (kind : BuffKind) :
    l.get? kind = l.active.find? fun b => b.kind = kind := by
  simp only [get?, active, List.find?_filter]
  congr 1
  funext b
  simp only [Bool.decide_and, Bool.decide_eq_true, Bool.and_comm]

/-- All questions are about the active entries. -/
theorem alike_of_active {l m : Ledger} (h : l.active = m.active) : l.Alike m := by
  have get : ∀ kind, l.get? kind = m.get? kind := by
    intro kind
    rw [get?_eq_find?_active, get?_eq_find?_active, h]
  constructor
  case active => exact h
  case get => exact get
  case has => exact fun kind => congrArg Option.isSome (get kind)
  case positiveCount => simp only [positiveCount, h]
  case negativeCount => simp only [negativeCount, h]
  case resistance =>
    intro element
    simp only [resistance, h]
  case requirementModifier => simp only [requirementModifier, h]

/-- Prunings in between cannot be seen, neither in the answers nor in the ledger afterwards, if
no inert entry is in the way of an addition or a cleansing. -/
theorem prune_invisible {l : Ledger} (reached : l.Reached) (pruned : List (Option Operation))
    (clear : ClearFor pruned.reduceOption l) :
    (follow pruned l).1 = (follow (pruned.reduceOption.map some) l).1 ∧
      (follow pruned l).2.Alike (follow (pruned.reduceOption.map some) l).2 := by
  obtain ⟨answers, thinned⟩ := follow_thinned pruned reached.distinct (.refl l.entries) clear
  exact ⟨answers, alike_of_active (active_of_thinned thinned).symm⟩

/-- The ledger of a fighter whose guard has stopped a hit. -/
def spentGuard : Ledger :=
  (follow [some (.add .guard 1 3), some (.incoming (.finite 5))] {}).2

theorem prune_invisible_spentGuard :
    spentGuard.Reached ∧
      ClearFor [.add (.feared 0) 1 2, .incoming (.finite 5), .takeSwift] spentGuard ∧
      (follow [none, some (.add (.feared 0) 1 2), none, some (.incoming (.finite 5)),
          some .takeSwift] spentGuard).1 =
        (follow [some (.add (.feared 0) 1 2), some (.incoming (.finite 5)), some .takeSwift]
          spentGuard).1 := by
  have reached : spentGuard.Reached :=
    .operate (.incoming (.finite 5)) (.operate (.add .guard 1 3) .empty)
  have clear : ClearFor [.add (.feared 0) 1 2, .incoming (.finite 5), .takeSwift] spentGuard := by
    refine ⟨?_, trivial, trivial, trivial⟩
    decide +kernel
  exact ⟨reached, clear, (prune_invisible reached
    [none, some (.add (.feared 0) 1 2), none, some (.incoming (.finite 5)), some .takeSwift]
    clear).1⟩

/-- The ledger of a fighter with a weakness that was inert from the start. -/
def inertWeakness : Ledger := (follow [some (.add (.fragile (.finite 25)) 2 0)] {}).2

/-- An inert weakness lends its stacks and its percentage to the next one, unless it is pruned in
time; and it uses up a cleansing that would have taken an active bad entry. -/
theorem inert_lends :
    inertWeakness.Reached ∧
      (follow [some (.add (.fragile (.finite 50)) 1 2)] inertWeakness).2.active =
        [⟨.fragile (.finite 25), 3, 2⟩] ∧
      (follow [none, some (.add (.fragile (.finite 50)) 1 2)] inertWeakness).2.active =
        [⟨.fragile (.finite 50), 1, 2⟩] ∧
      (follow [some (.add (.bleeding (.finite 10)) 1 2), some (.cleanse 1)]
          inertWeakness).2.active = [⟨.bleeding (.finite 10), 1, 2⟩] ∧
      (follow [none, some (.add (.bleeding (.finite 10)) 1 2), some (.cleanse 1)]
          inertWeakness).2.active = [] := by
  have reached : inertWeakness.Reached :=
    .operate (.add (.fragile (.finite 25)) 2 0) .empty
  refine ⟨reached, ?_, ?_, ?_, ?_⟩ <;> decide

end Ledger
end CardBattle
