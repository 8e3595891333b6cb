import CardBattle.Proofs.Hits

/-!
# CardBattle.Proofs.Guarded

A guard stops a hit, whatever stands before it and behind it in the ledger. A weakness may multiply
the amount by a negative number, an infinity or what is no number. Before the guard, it decides
whether the amount is above zero and the guard is spent; behind the guard, it multiplies nothing.
Either way there is nothing to round, because a ledger has only one weakness.

* `Binary.IsNull`: what multiplication can make of zero.
* `Ledger.incoming_guarded`: what arrives behind a guard, and what becomes of the entries.
* `Battle.guard_stops`: what such a hit leaves, and when it spends the guard.
-/

namespace CardBattle

namespace Binary

variable {f : Format} {x y : Binary f}

/-- Zero, or no number. -/
def IsNull : Binary f → Prop
  | .nan => True
  | .infinite _ => False
  | .finite q => q = 0

theorem ofRat_zero (h : 0 ≤ f.largest) : (ofRat 0 : Binary f) = .finite 0 := by
  have nearest : f.nearest 0 = 0 := by simp [Format.nearest]
  have above : ¬ f.largest < 0 := not_lt.mpr h
  have below : ¬ (0 : Rat) < -f.largest := by linarith
  simp only [ofRat, nearest, if_neg above, if_neg below]

theorem IsNull.mul {x : Single} (h : x.IsNull) (y : Single) : (x * y).IsNull := by
  have largest : 0 ≤ Format.single.largest := by decide +kernel
  cases x with
  | nan => trivial
  | infinite s => cases h
  | finite q =>
    cases h
    cases y with
    | nan => trivial
    | infinite s => trivial
    | finite r =>
      have product : (.finite 0 : Single) * .finite r = ofRat (0 * r) := rfl
      rw [product, zero_mul, ofRat_zero largest]
      rfl

theorem IsNull.lt (h : x.IsNull) : lt (.finite 0) x = false := by
  cases x with
  | nan => rfl
  | infinite s => cases h
  | finite q =>
    cases h
    rfl

theorem lt_zero_iff {q : Rat} : lt (.finite 0 : Binary f) (.finite q) = true ↔ 0 < q := by
  simp only [lt, order?]
  split
  · rename_i pos
    exact iff_of_true rfl pos
  · rename_i notPos
    split <;> exact iff_of_false nofun notPos

theorem le_zero_iff {q : Rat} : le (.finite q : Binary f) (.finite 0) = true ↔ q ≤ 0 := by
  simp only [le, order?]
  split
  · rename_i neg
    exact iff_of_true rfl neg.le
  · rename_i notNeg
    split
    · rename_i zero
      exact iff_of_true rfl zero.le
    · rename_i notZero
      exact iff_of_false nofun fun atMost => notNeg (lt_of_le_of_ne atMost notZero)

/-- What is neither at most zero nor above it is no number. -/
theorem isNull_of_incomparable (notLe : le x (.finite 0) = false)
    (notLt : lt (.finite 0) x = false) : x.IsNull := by
  cases x with
  | nan => trivial
  | infinite s => cases s <;> contradiction
  | finite q =>
    rcases lt_or_ge 0 q with pos | atMost
    · rw [lt_zero_iff.mpr pos] at notLt
      cases notLt
    · rw [le_zero_iff.mpr atMost] at notLe
      cases notLe

end Binary

/-- Nothing is left to round of what is not above zero. -/
theorem Fighter.roundAmount_of_lt {x : Single} (h : Binary.lt (.finite 0) x = false) :
    max 0 (roundAmount x) = 0 := by
  cases x with
  | nan => rfl
  | infinite s =>
    cases s with
    | false => cases h
    | true => rfl
  | finite q =>
    have atMost : q ≤ 0 := by
      by_contra pos
      rw [Binary.lt_zero_iff.mpr (not_le.mp pos)] at h
      cases h
    have near := (abs_le.mp (Binary.roundsTo_roundHalfAway q).near).1
    have below : (Binary.roundHalfAway q : Rat) < (1 : Int) := by
      rw [Rat.intCast_one]
      linarith
    have nonpos := Rat.intCast_lt_intCast.mp below
    simp only [roundAmount, Binary.roundWithin, Amount.least, Amount.greatest]
    omega

namespace Ledger

variable {before after : List Buff} {g : Buff} {x : Single}

theorem incomingFrom_append (bs cs : List Buff) (x : Single) :
    incomingFrom (bs ++ cs) x =
      ((incomingFrom cs (incomingFrom bs x).1).1,
        (incomingFrom bs x).2 ++ (incomingFrom cs (incomingFrom bs x).1).2) := by
  induction bs generalizing x with
  | nil => rfl
  | cons b bs ih => simp only [List.cons_append, incomingFrom, ih]

/-! ## Entries that do not matter -/

theorem meet_of_not_guard {b : Buff} (h : b.kind ≠ .guard) (x : Single) : (meet b x).2 = b := by
  obtain same | ⟨guard, _, _⟩ := meet_snd b x
  · exact same
  · exact absurd (congrArg BuffData.kind guard) h

theorem meet_of_plain {b : Buff} (noGuard : b.kind ≠ .guard) (noFragile : b.kind ≠ .fragile)
    (x : Single) : (meet b x).1 = x := by
  simp only [meet]
  split
  · split
    · rename_i fragile
      exact absurd (congrArg BuffData.kind fragile) noFragile
    · rename_i guard
      exact absurd (congrArg BuffData.kind guard) noGuard
    · rfl
  · rfl

/-- What is null stays so, and spends nothing. -/
theorem meet_of_isNull (b : Buff) (h : x.IsNull) :
    (meet b x).1.IsNull ∧ (meet b x).2 = b := by
  simp only [meet, h.lt, Bool.false_eq_true, if_false]
  split
  · split
    · exact ⟨h.mul _, rfl⟩
    · exact ⟨h, rfl⟩
    · exact ⟨h, rfl⟩
  · exact ⟨h, rfl⟩

theorem incomingFrom_of_not_guard {bs : List Buff} (h : .guard ∉ bs.map Buff.kind) (x : Single) :
    (incomingFrom bs x).2 = bs := by
  induction bs generalizing x with
  | nil => rfl
  | cons b bs ih =>
    obtain ⟨other, others⟩ := not_or.mp (List.mem_cons.not.mp h)
    simp only [incomingFrom, meet_of_not_guard (Ne.symm other), ih others]

theorem incomingFrom_of_plain {bs : List Buff} (noGuard : .guard ∉ bs.map Buff.kind)
    (noFragile : .fragile ∉ bs.map Buff.kind) (x : Single) : (incomingFrom bs x).1 = x := by
  induction bs generalizing x with
  | nil => rfl
  | cons b bs ih =>
    obtain ⟨guard, guards⟩ := not_or.mp (List.mem_cons.not.mp noGuard)
    obtain ⟨fragile, fragiles⟩ := not_or.mp (List.mem_cons.not.mp noFragile)
    simp only [incomingFrom, meet_of_plain (Ne.symm guard) (Ne.symm fragile),
      ih guards fragiles]

theorem incomingFrom_of_isNull (bs : List Buff) (h : x.IsNull) :
    (incomingFrom bs x).1.IsNull ∧ (incomingFrom bs x).2 = bs := by
  induction bs generalizing x with
  | nil => exact ⟨h, rfl⟩
  | cons b bs ih =>
    obtain ⟨null, same⟩ := meet_of_isNull b h
    obtain ⟨nulls, sames⟩ := ih null
    exact ⟨nulls, by simp only [incomingFrom, same, sames]⟩

/-! ## The guard -/

/-- A ledger with an active guard, and what stands before it and behind it. -/
structure GuardedBy (l : Ledger) (before : List Buff) (g : Buff) (after : List Buff) : Prop where
  entries : l.entries = before ++ g :: after
  guard : g.data = .guard
  active : g.isActive = true
  distinct : l.Distinct

namespace GuardedBy

variable {l : Ledger}

theorem kind (h : l.GuardedBy before g after) : g.kind = .guard := congrArg BuffData.kind h.guard

theorem nodup (h : l.GuardedBy before g after) :
    (before.map Buff.kind ++ .guard :: after.map Buff.kind).Nodup := by
  have distinct := h.distinct
  rwa [Distinct, h.entries, List.map_append, List.map_cons, h.kind] at distinct

theorem not_before (h : l.GuardedBy before g after) : .guard ∉ before.map Buff.kind := fun there =>
  (List.nodup_append.mp h.nodup).2.2 _ there _ List.mem_cons_self rfl

theorem not_after (h : l.GuardedBy before g after) : .guard ∉ after.map Buff.kind :=
  (List.nodup_cons.mp (List.nodup_append.mp h.nodup).2.1).1

/-- There is only one weakness. -/
theorem fragile (h : l.GuardedBy before g after) :
    .fragile ∉ before.map Buff.kind ∨ .fragile ∉ after.map Buff.kind := by
  by_contra both
  obtain ⟨first, second⟩ := not_or.mp both
  exact (List.nodup_append.mp h.nodup).2.2 _ (not_not.mp first) _
    (List.mem_cons_of_mem _ (not_not.mp second)) rfl

theorem mem_active (h : l.GuardedBy before g after) : g ∈ l.active :=
  List.mem_filter.mpr ⟨by rw [h.entries]; simp, h.active⟩

/-- All entries of its kind are active, because there are no others. -/
theorem not_gone (h : l.GuardedBy before g after) : .guard ∉ l.prune.1 := by
  intro gone
  obtain ⟨c, there, kind⟩ := List.mem_map.mp gone
  obtain ⟨entry, inert⟩ := List.mem_filter.mp there
  have same : c = g :=
    List.inj_on_of_nodup_map h.distinct entry (List.mem_of_mem_filter h.mem_active)
      (kind.trans h.kind.symm)
  simp [same, h.active] at inert

end GuardedBy

/-- A hit reaches the guard with an amount above zero. -/
def Spends (before : List Buff) (amount : Single) : Prop :=
  Binary.le amount (.finite 0) = false ∧
    Binary.lt (.finite 0) (incomingFrom before amount).1 = true

instance (before : List Buff) (amount : Single) : Decidable (Spends before amount) :=
  inferInstanceAs (Decidable (_ ∧ _))

theorem meet_guard {g : Buff} (guard : g.data = .guard) (active : g.isActive = true) (x : Single) :
    meet g x = if Binary.lt (.finite 0) x then (.finite 0, g.expire) else (x, g) := by
  simp only [meet, active, if_true, guard]

/-- The amount is above zero at the guard: zero is behind it, whatever it is multiplied by. -/
theorem incoming_spent {l : Ledger} (h : l.GuardedBy before g after) (spends : Spends before x) :
    Binary.lt (.finite 0) (l.incoming x).1 = false ∧
      (l.incoming x).2 = ⟨before ++ g.expire :: after⟩ := by
  have null : (.finite 0 : Single).IsNull := rfl
  obtain ⟨nulls, same⟩ := incomingFrom_of_isNull after null
  have met := meet_guard h.guard h.active (incomingFrom before x).1
  rw [spends.2, if_pos rfl] at met
  have folded : incomingFrom l.entries x =
      ((incomingFrom after (.finite 0)).1, before ++ g.expire :: after) := by
    rw [h.entries, incomingFrom_append, incomingFrom_of_not_guard h.not_before]
    simp only [incomingFrom, met, same]
  simp only [incoming, folded]
  exact ⟨nulls.lt, trivial⟩

/-- The amount is not above zero at the guard. If no weakness has been before it, the amount was no
number from the start, and stays so. Else there is none behind it. -/
theorem incoming_unspent {l : Ledger} (h : l.GuardedBy before g after)
    (positive : Binary.le x (.finite 0) = false) (spends : ¬ Spends before x) :
    Binary.lt (.finite 0) (l.incoming x).1 = false ∧ (l.incoming x).2 = l := by
  have notLt : Binary.lt (.finite 0) (incomingFrom before x).1 = false := by
    by_contra above
    exact spends ⟨positive, by simpa using above⟩
  have met := meet_guard h.guard h.active (incomingFrom before x).1
  rw [notLt, if_neg Bool.false_ne_true] at met
  have folded : incomingFrom l.entries x =
      ((incomingFrom after (incomingFrom before x).1).1, l.entries) := by
    rw [h.entries, incomingFrom_append, incomingFrom_of_not_guard h.not_before]
    simp only [incomingFrom, met, incomingFrom_of_not_guard h.not_after]
  simp only [incoming, folded]
  refine ⟨?_, trivial⟩
  rcases h.fragile with noneBefore | noneAfter
  · rw [incomingFrom_of_plain h.not_before noneBefore] at notLt ⊢
    exact (incomingFrom_of_isNull after (Binary.isNull_of_incomparable positive notLt)).1.lt
  · rw [incomingFrom_of_plain h.not_after noneAfter]
    exact notLt

end Ledger

/-! ## The hit -/

/-- A hit of which nothing is left to round only prunes. -/
theorem Fighter.takeHit_of_lt {f : Fighter} {x : Single} (alive : f.isAlive = true)
    (shield : 0 ≤ f.shield) (h : Binary.lt (.finite 0) (f.buffs.incoming x).1 = false) :
    f.takeHit x = ({}, (f.buffs.incoming x).2.prune.1,
      { f with buffs := (f.buffs.incoming x).2.prune.2 }) := by
  have hp : 0 < f.hp := by simpa [isAlive] using alive
  have absorbed : min f.shield 0 = 0 := Int.min_eq_right shield
  have lost : min f.hp 0 = 0 := Int.min_eq_right hp.le
  simp [takeHit, roundAmount_of_lt h, absorbed, lost, hp]

namespace Ledger

variable {l : Ledger} {before after : List Buff} {g : Buff} {amount : Single}

/-- What a stopped hit leaves of a ledger, and which kinds are gone: no buff that was active is lost
but the guard, and the guard only if the hit spends it. -/
structure Stopped (l : Ledger) (before after : List Buff) (amount : Single) (gone : List BuffKind)
    (l' : Ledger) : Prop where
  sublist : l'.entries.Sublist l.entries
  spent : Spends before amount →
    l'.active = (before ++ after).filter Buff.isActive ∧ l'.entry? .guard = none ∧ .guard ∈ gone
  unspent : ¬ Spends before amount →
    l'.active = l.active ∧ l'.has .guard = true ∧ .guard ∉ gone

theorem GuardedBy.has (h : l.GuardedBy before g after) {l' : Ledger} (same : l'.active = l.active) :
    l'.has .guard = true := by
  rw [Ledger.has, get?_eq_find?_active, same, List.find?_isSome]
  exact ⟨g, h.mem_active, by simp [h.kind]⟩

theorem stopped_untouched (h : l.GuardedBy before g after) (spends : ¬ Spends before amount) :
    l.Stopped before after amount [] l :=
  ⟨.refl _, fun spent => absurd spent spends, fun _ => ⟨rfl, h.has rfl, List.not_mem_nil⟩⟩

theorem stopped_incoming (h : l.GuardedBy before g after)
    (positive : Binary.le amount (.finite 0) = false) :
    l.Stopped before after amount (l.incoming amount).2.prune.1 (l.incoming amount).2.prune.2 := by
  by_cases spends : Spends before amount
  · have left : (l.incoming amount).2.prune.2.entries = (before ++ after).filter Buff.isActive := by
      simp [(incoming_spent h spends).2, prune]
    refine ⟨?_, fun _ => ⟨?_, ?_, ?_⟩, fun unspent => absurd spends unspent⟩
    · rw [left, h.entries]
      exact List.filter_sublist.trans ((List.sublist_cons_self g after).append_left before)
    · rw [active, left, List.filter_filter]
      simp
    · rw [entry?_eq_none_iff, left]
      intro there
      obtain ⟨c, mem, kind⟩ := List.mem_map.mp there
      rcases List.mem_append.mp (List.mem_of_mem_filter mem) with first | second
      · exact h.not_before (kind ▸ List.mem_map_of_mem first)
      · exact h.not_after (kind ▸ List.mem_map_of_mem second)
    · simp [(incoming_spent h spends).2, prune, h.kind]
  · rw [(incoming_unspent h positive spends).2]
    have same : l.prune.2.active = l.active := by simp [prune, active]
    exact ⟨List.filter_sublist, fun spent => absurd spent spends,
      fun _ => ⟨same, h.has same, h.not_gone⟩⟩

end Ledger

namespace Battle

variable {b : Battle} {target : FighterId} {f : Fighter} {before after : List Buff} {g : Buff}

/-- A guard stops any hit: the points of the fighter stay, and so do its active buffs, fear with
what it remembers. The guard itself is spent if the hit is above zero when it gets there. In any
battle shields are not negative and the kinds of a ledger are distinct. -/
theorem guard_stops (hf : b.fighter? target = some f) (alive : f.isAlive = true)
    (shield : 0 ≤ f.shield) (guarded : f.buffs.GuardedBy before g after) (amount : Single) :
    (b.hurt target amount).1 = {} ∧
      ∃ l gone es, (b.hurt target amount).2.fighter? target = some { f with buffs := l } ∧
        (b.hurt target amount).2.events.toList = b.events.toList ++ es ∧
        (∀ k, k ∈ gone ↔ .buffExpired target k ∈ es) ∧
        f.buffs.Stopped before after amount gone l := by
  cases positive : Binary.le amount (.finite 0) with
  | true =>
    have spends : ¬ Ledger.Spends before amount := fun spent => by simp [spent.1] at positive
    rw [hurt_of_le positive]
    exact ⟨rfl, f.buffs, [], [], hf, by simp, by simp, Ledger.stopped_untouched guarded spends⟩
  | false =>
    have nothing : Binary.lt (.finite 0) (f.buffs.incoming amount).1 = false := by
      by_cases spends : Ledger.Spends before amount
      · exact (Ledger.incoming_spent guarded spends).1
      · exact (Ledger.incoming_unspent guarded positive spends).1
    rw [hurt_eq hf alive positive, Fighter.takeHit_of_lt alive shield nothing]
    refine ⟨rfl, _, _, .damaged target {} ::
      (f.buffs.incoming amount).2.prune.1.map fun k => .buffExpired target k, ?_, ?_, ?_,
      Ledger.stopped_incoming guarded positive⟩
    · rw [fighter?_emitAll, fighter?_setFighter _ hf, if_pos rfl]
    · rw [events_emitAll, events_setFighter]
    · simp

/-- An enemy with a guard, and behind it a weakness that makes zero into no number. -/
def sheltered : Fighter :=
  { id := .enemy 0, hp := 10, maxHp := 50, shield := 3
    buffs := ⟨[⟨.guard, 1, 2⟩, ⟨.fragile (.infinite false), 1, 2⟩, ⟨.feared 4, 1, 2⟩]⟩ }

theorem guard_stops_sheltered :
    Ledger.Spends [] (.finite 12) ∧
      ((staged (.fresh .player 30) [sheltered]).hurt (.enemy 0) (.finite 12)).1 = {} ∧
      ∃ l, ((staged (.fresh .player 30) [sheltered]).hurt (.enemy 0) (.finite 12)).2.fighter?
          (.enemy 0) = some { sheltered with buffs := l } ∧
        l.active = [⟨.fragile (.infinite false), 1, 2⟩, ⟨.feared 4, 1, 2⟩] ∧
        l.entry? .guard = none := by
  have guarded : sheltered.buffs.GuardedBy [] ⟨.guard, 1, 2⟩
      [⟨.fragile (.infinite false), 1, 2⟩, ⟨.feared 4, 1, 2⟩] :=
    ⟨rfl, rfl, rfl, by simp [Ledger.Distinct, sheltered, Buff.kind, BuffData.kind]⟩
  have spends : Ledger.Spends [] (.finite 12) := by decide +kernel
  have here : (staged (.fresh .player 30) [sheltered]).fighter? (.enemy 0) = some sheltered := rfl
  obtain ⟨report, l, _, _, there, _, _, stopped⟩ :=
    guard_stops here rfl (by decide) guarded (.finite 12)
  obtain ⟨active, gone, _⟩ := stopped.spent spends
  exact ⟨spends, report, l, there, active, gone⟩

/-- An enemy with a guard, and before it a weakness that turns a hit into its opposite. -/
def contrary : Fighter :=
  { sheltered with buffs := ⟨[⟨.fragile (.finite (-200)), 1, 2⟩, ⟨.guard, 1, 2⟩]⟩ }

-- The hit is below zero at the guard, which stays.
example : contrary.takeHit (.finite 12) = ({}, [], contrary) := by decide +kernel

end Battle
end CardBattle
