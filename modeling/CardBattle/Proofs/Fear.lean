import CardBattle.Proofs.BuffTexts
import CardBattle.Proofs.Guarded
import CardBattle.Proofs.Passages
import CardBattle.Proofs.Unspent
import CardBattle.Proofs.Volley

/-!
# CardBattle.Proofs.Fear

What one change of a fighter does to its fear. A hit adds what the hit points lose; what a shield or
a guard takes is not lost, and healing gives nothing back. Fear that is applied again goes on from
what it holds. The owner's turn start makes it forget. At the owner's turn end there is a tick for
what it holds.

* `Ledger.Recalls`: what the entry of fear holds.
* `Ledger.Clings`: what becomes of the entry when something is lost; `Ledger.Recalls.add` and
  `Ledger.recalls_turnStart` are the changes that it does not cover.
* `Ledger.fearTicks_eq`: the tick of fear at a turn end.
* `Event.loss`: the hit points that events tell as lost.
* `Fighter.Incident.loss_eq`, `Fighter.Incident.recalls`: one change.
-/

namespace CardBattle

/-! ## The entry of fear -/

namespace Ledger

variable {l l' : Ledger} {n m lost : Int}

theorem entry?_of_mem (distinct : l.Distinct) {e : Buff} (he : e ∈ l.entries) :
    l.entry? e.kind = some e := by
  cases found : l.entry? e.kind with
  | none => exact absurd (List.mem_map_of_mem he) (entry?_eq_none_iff.mp found)
  | some e' =>
    obtain ⟨he', kind⟩ := entry?_eq_some found
    rw [List.inj_on_of_nodup_map distinct he' he kind]

/-- The active entry of a kind is its only entry, if that one is active. -/
theorem get?_eq_some_iff (distinct : l.Distinct) {k : BuffKind} {e : Buff} :
    l.get? k = some e ↔ l.entry? k = some e ∧ e.isActive = true := by
  constructor
  · intro h
    have here := List.mem_of_find?_eq_some h
    have found := List.find?_some h
    simp only [Bool.and_eq_true, decide_eq_true_eq] at found
    obtain ⟨kind, active⟩ := found
    exact ⟨kind ▸ entry?_of_mem distinct here, active⟩
  · rintro ⟨h, active⟩
    obtain ⟨here, kind⟩ := entry?_eq_some h
    cases found : l.get? k with
    | none =>
      have inert := List.find?_eq_none.mp found e here
      simp [kind, active] at inert
    | some e' =>
      have here' := List.mem_of_find?_eq_some found
      have kind' := List.find?_some found
      simp only [Bool.and_eq_true, decide_eq_true_eq] at kind'
      rw [List.inj_on_of_nodup_map distinct here' here (kind'.1.trans kind.symm)]

theorem has_eq_true_iff (distinct : l.Distinct) {k : BuffKind} :
    l.has k = true ↔ ∃ e, l.entry? k = some e ∧ e.isActive = true := by
  rw [has, Option.isSome_iff_exists]
  exact exists_congr fun e => get?_eq_some_iff distinct

/-- An active fear holds `n`, an inert one holds nothing. -/
def Recalls (l : Ledger) (n : Int) : Prop :=
  ∀ e, l.entry? .feared = some e → e.data = .feared (if e.isActive then n else 0)

/-- The entry of fear in `l'` is that of `l` after this loss. -/
def Clings (lost : Int) (l l' : Ledger) : Prop :=
  ∀ e', l'.entry? .feared = some e' →
    ∃ e, l.entry? .feared = some e ∧ e' = if 0 < lost then recordIn lost e else e

/-- What fear holds after a loss. -/
def remembered (n lost : Int) : Int := if 0 < lost then Amount.saturate (n + lost) else n

/-- What is not active holds anything. -/
theorem Recalls.of_not_has (h : l.Recalls n) (distinct : l.Distinct)
    (calm : l.has .feared = false) : l.Recalls m := by
  intro e he
  have inert : e.isActive = false := by
    by_contra active
    have afraid := (has_eq_true_iff distinct).mpr ⟨e, he, by simpa using active⟩
    rw [calm] at afraid
    cases afraid
  have data := h e he
  simp only [inert, Bool.false_eq_true, if_false] at data ⊢
  exact data

theorem isActive_recordIn (lost : Int) (e : Buff) : (recordIn lost e).isActive = e.isActive := by
  simp only [recordIn]
  split
  · split <;> rfl
  · rfl

theorem Clings.recalls (h : Clings lost l l') (hl : l.Recalls n) :
    l'.Recalls (remembered n lost) := by
  intro e' he'
  obtain ⟨e, he, rfl⟩ := h e' he'
  have data := hl e he
  unfold remembered
  split
  · rw [isActive_recordIn]
    cases active : e.isActive with
    | true =>
      simp only [active, if_true] at data ⊢
      simp [recordIn, data, active]
    | false =>
      simp only [active, Bool.false_eq_true, if_false] at data ⊢
      simp [recordIn, data, active]
  · exact data

theorem Clings.has (h : Clings lost l l') (distinct : l.Distinct) (distinct' : l'.Distinct)
    (afraid : l'.has .feared = true) : l.has .feared = true := by
  obtain ⟨e', he', active⟩ := (has_eq_true_iff distinct').mp afraid
  obtain ⟨e, he, rfl⟩ := h e' he'
  refine (has_eq_true_iff distinct).mpr ⟨e, he, ?_⟩
  split at active
  · rwa [isActive_recordIn] at active
  · exact active

/-- It is enough to know where the entries of fear come from. -/
theorem clings_of_mem (distinct : l.Distinct)
    (origin : ∀ e' ∈ l'.entries, e'.kind = .feared →
      ∃ e ∈ l.entries, e.kind = .feared ∧ e' = if 0 < lost then recordIn lost e else e) :
    Clings lost l l' := by
  intro e' he'
  obtain ⟨here, kind⟩ := entry?_eq_some he'
  obtain ⟨e, he, fear, eq⟩ := origin e' here kind
  exact ⟨e, fear ▸ entry?_of_mem distinct he, eq⟩

/-- Nothing is lost, and other entries may change or go. -/
theorem clings_of_subset (distinct : l.Distinct)
    (within : ∀ e' ∈ l'.entries, e'.kind = .feared → e' ∈ l.entries) : Clings 0 l l' :=
  clings_of_mem distinct fun e' he' kind => ⟨e', within e' he' kind, kind, rfl⟩

theorem mem_of_mem_incomingFrom {bs : List Buff} {e : Buff} {x : Single}
    (h : e ∈ (incomingFrom bs x).2) (kind : e.kind ≠ .guard) : e ∈ bs := by
  induction bs generalizing x with
  | nil => exact h
  | cons b bs ih =>
    simp only [incomingFrom] at h
    rcases List.mem_cons.mp h with rfl | h
    · have other : b.kind ≠ .guard := by
        intro guard
        exact kind ((congrArg Prod.fst (face_meet b x)).trans guard)
      rw [meet_of_not_guard other]
      exact List.mem_cons_self
    · exact List.mem_cons_of_mem _ (ih h)

theorem mem_of_mem_takeSwiftFrom {bs : List Buff} {e : Buff} (h : e ∈ (takeSwiftFrom bs).2)
    (kind : e.kind ≠ .swift) : e ∈ bs := by
  induction bs with
  | nil => exact h
  | cons b bs ih =>
    simp only [takeSwiftFrom] at h
    cases reach : reach? b with
    | some r =>
      simp only [reach] at h
      rcases List.mem_cons.mp h with rfl | h
      · exact absurd (kind_of_reach? reach) kind
      · exact List.mem_cons_of_mem _ h
    | none =>
      simp only [reach] at h
      rcases List.mem_cons.mp h with rfl | h
      · exact List.mem_cons_self
      · exact List.mem_cons_of_mem _ (ih h)

theorem mem_of_mem_drainFrom {bs : List Buff} {e : Buff} (h : e ∈ (drainFrom bs).2)
    (kind : e.kind ≠ .lifesteel) : e ∈ bs := by
  induction bs with
  | nil => exact h
  | cons b bs ih =>
    simp only [drainFrom] at h
    cases drains : drainable? b with
    | some percent =>
      simp only [drains] at h
      rcases List.mem_cons.mp h with rfl | h
      · have same := congrArg Prod.fst (face_drained b)
        exact absurd (same.trans (kind_of_drainable? drains)) kind
      · exact List.mem_cons_of_mem _ h
    | none =>
      simp only [drains] at h
      rcases List.mem_cons.mp h with rfl | h
      · exact List.mem_cons_self
      · exact List.mem_cons_of_mem _ (ih h)

theorem clings_cleanse (distinct : l.Distinct) (n : Nat) : Clings 0 l (l.cleanse n).2 := by
  obtain ⟨_, _, _, within⟩ := cleanseFrom_perm n l.entries
  exact clings_of_subset distinct fun e he _ => within.subset he

/-- Neither swift nor lifesteel is fear, and pruning only takes entries out. -/
theorem Spend.clings (h : l.Spend l') (distinct : l.Distinct) : Clings 0 l l'.prune.2 := by
  refine clings_of_subset distinct fun e he kind => ?_
  have here : e ∈ l'.entries := List.mem_of_mem_filter he
  cases h with
  | idle => exact here
  | swift => exact mem_of_mem_takeSwiftFrom here (by simp [kind])
  | drain => exact mem_of_mem_drainFrom here (by simp [kind])

theorem not_has_of_inert (distinct : l.Distinct) {k : BuffKind}
    (inert : ∀ e, l.entry? k = some e → e.isActive = false) : l.has k ≠ true := by
  intro has
  obtain ⟨e, he, active⟩ := (has_eq_true_iff distinct).mp has
  rw [inert e he] at active
  cases active

/-- Fear that is applied again goes on from what it holds, and new fear starts from nothing. -/
theorem Recalls.add (h : l.Recalls n) (distinct : l.Distinct) {b : Buff}
    (blank : b.kind = .feared → b.data = .feared 0) (ready : l.has .feared = true ∨ n = 0) :
    Ledger.Recalls (l.add b).2 n := by
  intro e' he'
  by_cases fear : b.kind = .feared
  · have joined := entry?_add_self distinct b
    rw [fear, he', Option.some.injEq] at joined
    cases found : l.entry? .feared with
    | none =>
      have calm := not_has_of_inert distinct (k := .feared) (by simp [found])
      rw [found] at joined
      rw [joined, blank fear, ready.resolve_left calm]
      simp
    | some e =>
      rw [found] at joined
      have data := h e found
      rw [joined, isActive_merge]
      cases active : e.isActive with
      | true => simpa [merge, active] using data
      | false =>
        have calm := not_has_of_inert distinct (k := .feared) (by simp [found, active])
        simpa [merge, active, ready.resolve_left calm] using data
  · rw [entry?_add_ne distinct b (Ne.symm fear)] at he'
    exact h e' he'

/-- At its owner's turn start fear forgets. -/
theorem recalls_turnStart (l : Ledger) : l.turnStart.2.2.Recalls 0 := by
  intro e he
  obtain ⟨here, kind⟩ := entry?_eq_some he
  obtain ⟨there, active⟩ := List.mem_filter.mp here
  obtain ⟨b, _, rfl⟩ := List.mem_map.mp there
  rw [ite_self]
  cases awake : b.isActive with
  | false => simp [turnStarted, awake] at active
  | true =>
    have fear : b.kind = .feared := (congrArg Prod.fst (face_turnStarted b)).symm.trans kind
    cases data : b.data with
    | feared n => simp [turnStarted, awake, data]
    | _ => simp [Buff.kind, data, BuffData.kind] at fear

/-! ## The tick of fear -/

/-- Of distinct entries at most one has a kind. -/
theorem filter_kind_of_nodup {bs : List Buff} (distinct : (bs.map Buff.kind).Nodup) (k : BuffKind) :
    bs.filter (fun b => b.kind = k) = (bs.find? fun b => b.kind = k).toList := by
  induction bs with
  | nil => rfl
  | cons b bs ih =>
    obtain ⟨fresh, distinct⟩ := List.nodup_cons.mp distinct
    by_cases same : b.kind = k
    · have none : ∀ c ∈ bs, ¬ c.kind = k := by
        intro c hc other
        exact fresh (same ▸ other ▸ List.mem_map_of_mem hc)
      have others : bs.filter (fun c => c.kind = k) = [] := by simpa using none
      simp [same, others]
    · simp [same, ih distinct]

end Ledger

/-- The ticks that come from fear. -/
def Tick.ofFear : Tick → Bool
  | .damage .feared _ => true
  | _ => false

namespace Ledger

variable {l : Ledger} {n : Int}

theorem filter_tick? (x : Single) (b : Buff) :
    (tick? x b).filter Tick.ofFear = if b.kind = .feared then tick? x b else none := by
  obtain ⟨data, stack, duration⟩ := b
  cases data with
  | feared n =>
    simp only [tick?]
    split <;> rfl
  | _ => rfl

/-- Only an active fear that holds something has a tick. -/
theorem fearTicks_eq (h : l.Recalls n) (distinct : l.Distinct) (maxHp : Int) :
    (l.turnEnd maxHp).filter Tick.ofFear =
      if l.has .feared = true ∧ 0 < n then [.damage .feared (Binary.ofInt n)] else [] := by
  have only : l.active.filter (fun b => b.kind = .feared) = (l.get? .feared).toList := by
    rw [get?_eq_find?_active]
    exact filter_kind_of_nodup (distinct.sublist (List.filter_sublist.map _)) .feared
  have ticks : (l.turnEnd maxHp).filter Tick.ofFear =
      (l.get? .feared).toList.filterMap (tick? (Binary.ofInt maxHp)) := by
    rw [← only, turnEnd, List.filter_filterMap, List.filterMap_filter]
    simp only [filter_tick?, decide_eq_true_eq]
  rw [ticks, has]
  cases found : l.get? .feared with
  | none => rfl
  | some e =>
    obtain ⟨entry, active⟩ := (get?_eq_some_iff distinct).mp found
    have data := h e entry
    rw [active, if_pos rfl] at data
    by_cases some : 0 < n <;> simp [tick?, data, some]

end Ledger

/-! ## New buffs -/

namespace BuffSpec

/-- Fear that is made from a text holds nothing. -/
theorem blank_of_toBuff {spec : BuffSpec} {b : Buff} (made : spec.toBuff = .ok b)
    (fear : b.kind = .feared) : b.data = .feared 0 := by
  obtain ⟨d, read, rfl⟩ := map_eq_ok_iff.mp made
  rw [Buff.kind_make] at fear
  rw [← (data_eq_ok_iff.mp read).1, fear] at read
  cases read
  rfl

end BuffSpec

/-! ## Losses -/

namespace Event

/-- The hit points that an event tells as lost by a fighter. -/
def lossOf (id : FighterId) : Event → Int
  | .damaged target report => if target = id then report.lost else 0
  | _ => 0

def loss (id : FighterId) (es : List Event) : Int := (es.map (lossOf id)).sum

theorem loss_append (id : FighterId) (es es' : List Event) :
    loss id (es ++ es') = loss id es + loss id es' := by
  simp [loss]

theorem lossOf_of_subject? {id : FighterId} {e : Event} (h : e.subject? ≠ some id) :
    e.lossOf id = 0 := by
  cases e with
  | damaged target report =>
    have other : target ≠ id := fun same => h (congrArg some same)
    simp [lossOf, other]
  | _ => rfl

/-- What is told of others tells no loss. -/
theorem loss_of_subject? {id : FighterId} {es : List Event} (h : ∀ e ∈ es, e.subject? ≠ some id) :
    loss id es = 0 := by
  have zero : es.map (lossOf id) = es.map fun _ => 0 :=
    List.map_congr_left fun e he => lossOf_of_subject? (h e he)
  simp [loss, zero]

theorem loss_expired (id j : FighterId) (kinds : List BuffKind) :
    loss id (kinds.map (.buffExpired j)) = 0 := by
  have zero : ∀ k : BuffKind, lossOf id (.buffExpired j k) = 0 := fun _ => rfl
  simp [loss, Function.comp_def, zero]

theorem loss_cons (id : FighterId) (e : Event) (es : List Event) :
    loss id (e :: es) = e.lossOf id + loss id es := rfl

theorem loss_hit (id : FighterId) (report : HitReport) (kinds : List BuffKind) :
    loss id (.damaged id report :: kinds.map (.buffExpired id)) = report.lost := by
  rw [loss_cons, loss_expired, add_zero]
  exact if_pos rfl

end Event

namespace Fighter

open Ledger Event

variable {id : FighterId} {f f' : Fighter} {es : List Event} {n : Int}

/-- What a hit leaves of fear. -/
theorem clings_takeHit (distinct : f.buffs.Distinct) (x : Single) :
    Clings (f.takeHit x).1.lost f.buffs (f.takeHit x).2.2.buffs := by
  refine clings_of_mem distinct fun e' he' kind => ?_
  have here : e' ∈ (if 0 < (f.takeHit x).1.lost then
      (f.buffs.incoming x).2.record (f.takeHit x).1.lost
      else (f.buffs.incoming x).2).entries := List.mem_of_mem_filter he'
  split at here
  · rename_i some
    obtain ⟨e, he, rfl⟩ := List.mem_map.mp here
    have fear : e.kind = .feared := (congrArg Prod.fst (face_recordIn _ e)).symm.trans kind
    exact ⟨e, mem_of_mem_incomingFrom he (by simp [fear]), fear, (if_pos some).symm⟩
  · rename_i none
    exact ⟨e', mem_of_mem_incomingFrom here (by simp [kind]), kind, (if_neg none).symm⟩

/-- What is told as lost is what the hit points are fewer. A hit that a shield or a guard stops, and
healing, take none. -/
theorem Incident.loss_eq (h : f.Incident id es f') (sound : f.Sound) :
    loss id es = max 0 (f.hp - f'.hp) := by
  cases h with
  | hit x _ =>
    have lost := lost_takeHit sound.hp_nonneg x
    rw [loss_hit, hp_takeHit]
    omega
  | mend x _ =>
    have restored := restored_mend sound.hp_le_maxHp x
    have told : loss id (if 0 < (f.mend x).1 then [.healed id (f.mend x).1] else []) = 0 := by
      split <;> rfl
    rw [told, hp_mend]
    omega
  | apply _ => simp [loss, lossOf]
  | cleanse n => simp [loss_expired]
  | settle _ => simp [loss_expired]

/-- Fear clings, unless a buff is applied, and then nothing is lost. -/
theorem Incident.clings_or_applied (h : f.Incident id es f') (distinct : f.buffs.Distinct) :
    Clings (loss id es) f.buffs f'.buffs ∨
      loss id es = 0 ∧ ∃ b : Buff, (b.kind = .feared → b.data = .feared 0) ∧
        f'.buffs = (f.buffs.add b).2 := by
  cases h with
  | hit x _ =>
    rw [loss_hit]
    exact .inl (clings_takeHit distinct x)
  | mend x _ =>
    have told : loss id (if 0 < (f.mend x).1 then [.healed id (f.mend x).1] else []) = 0 := by
      split <;> rfl
    rw [told]
    exact .inl (clings_of_subset distinct fun e he _ => he)
  | @apply spec b made => exact .inr ⟨by simp [loss, lossOf], b, BuffSpec.blank_of_toBuff made, rfl⟩
  | cleanse n =>
    rw [loss_expired]
    exact .inl (clings_cleanse distinct n)
  | settle spent =>
    rw [loss_expired]
    exact .inl (spent.clings distinct)

theorem Incident.recalls (h : f.Incident id es f') (distinct : f.buffs.Distinct)
    (hf : f.buffs.Recalls n) (ready : f.buffs.has .feared = true ∨ n = 0) :
    f'.buffs.Recalls (remembered n (loss id es)) := by
  obtain clings | ⟨none, b, blank, added⟩ := h.clings_or_applied distinct
  · exact clings.recalls hf
  · rw [none, added]
    exact hf.add distinct blank ready

/-- Nothing is lost when fear becomes active. -/
theorem Incident.loss_of_fright (h : f.Incident id es f') (sound : f.Sound)
    (calm : f.buffs.has .feared = false) (afraid : f'.buffs.has .feared = true) :
    loss id es = 0 := by
  obtain clings | ⟨none, _⟩ := h.clings_or_applied sound.distinct
  · have before := clings.has sound.distinct (h.change.sound sound).distinct afraid
    rw [calm] at before
    cases before
  · exact none

end Fighter
end CardBattle
