import CardBattle.Proofs.Hits
import CardBattle.Proofs.Roundtrip
import CardBattle.Proofs.Rows

/-!
# CardBattle.Proofs.SkillValues

The values of skills and their trip through text. A value is a number; the slot of its effect holds
a text, which is read again by the grammar of the kind. Scaled damage arrives as the nearest number,
healing as the number itself, and an integer exactly if the value is one that the kind can hold.

* `EffectKind.number?`, `EffectKind.integer?`: what a kind makes of its value.
* `Skill.read?_valueText`, `Skill.int32?_valueText`: the texts of values as numbers and as integers.
* `Skill.ReadsBack`, `Skill.readsBack_slots`: what becomes of a value.
-/

namespace CardBattle

open Numeral

/-! ## Kinds -/

namespace EffectKind

/-- The effects whose value is a number. -/
def number? : EffectKind → Option (Single → Effect)
  | .singleDamage => some .damageTarget
  | .areaDamage => some .damageOpponents
  | .selfDamage => some .damageSelf
  | .selfFlatHeal => some .healSelf
  | .selfPercentHeal => some .healSelfPercent
  | _ => Option.none

/-- The effects whose value is an integer. -/
def integer? : EffectKind → Option (Int → Effect)
  | .angelUp => some fun n => .shiftGauge .angel n
  | .angelDown => some fun n => .shiftGauge .angel (-n)
  | .demonUp => some fun n => .shiftGauge .demon n
  | .demonDown => some fun n => .shiftGauge .demon (-n)
  | .gainAction => some .gainAction
  | .reduceCost => some .reduceCost
  | .drawCards => some fun n => .drawCards n.toNat
  | .burnDeck => some fun n => .burn .draw n.toNat
  | .burnHand => some fun n => .burn .hand n.toNat
  | .cleanseSelf => some fun n => .cleanseSelf n.toNat
  | _ => Option.none

/-- The kinds that take the opposite of their value. -/
def isDown : EffectKind → Bool
  | .angelDown | .demonDown => true
  | _ => false

theorem isFlatDamage_of_integer? {kind : EffectKind} {make : Int → Effect}
    (h : kind.integer? = some make) : kind.isFlatDamage = false := by
  cases kind <;> first | rfl | cases h

end EffectKind

namespace Effect

variable {kind : EffectKind} {value : List Char}

theorem readTrimmed_of_number? {make : Single → Effect} (h : kind.number? = some make) :
    readTrimmed kind value = (number kind value value).map fun x => some (make x) := by
  cases kind <;> cases h <;> rfl

/-- An integer is read, unless it is the least one and its opposite is wanted. -/
theorem readTrimmed_of_integer? {make : Int → Effect} (h : kind.integer? = some make) :
    readTrimmed kind value =
      match int32? (Text.trim value) with
      | some n =>
        if kind.isDown = true ∧ n = Amount.least then
          .error (.invalidNumber kind (String.ofList value))
        else .ok (some (make n))
      | none => .error (.invalidNumber kind (String.ofList value)) := by
  cases found : int32? (Text.trim value) with
  | none =>
    have fault : integer kind value value =
        .error (.invalidNumber kind (String.ofList value)) := by
      rw [integer, found]
    cases kind <;> cases h <;> simp only [readTrimmed, negated, count, fault] <;> rfl
  | some n =>
    have read : integer kind value value = .ok n := by rw [integer, found]
    by_cases least : n = Amount.least <;> cases kind <;> cases h <;>
      simp [readTrimmed, negated, count, read, EffectKind.isDown, least, Except.map]

end Effect

/-! ## The text of a value -/

theorem Binary.exists_of_isIntegral {f : Format} {x : Binary f} (h : x.isIntegral = true) :
    ∃ n : Int, x = .finite n := by
  cases x with
  | finite q =>
    have whole : q.den = 1 := beq_iff_eq.mp h
    exact ⟨q.num, by rw [Rat.coe_int_num_of_den_eq_one whole]⟩
  | _ => cases h

/-- Integers of 32 bits are in the range of single precision. -/
theorem Binary.exists_ofInt_eq_of_inRange {n : Int} (h : Amount.InRange n) :
    ∃ k : Int, (ofInt n : Single) = .finite k ∧ Format.single.IsNearest n k := by
  have high : (31 : Int) ≤ Format.single.highest := by decide
  refine exists_ofInt_eq Format.single_isProper (by decide) high ?_
  obtain ⟨lower, upper⟩ := h
  have bound : |n| ≤ 2 ^ 31 := by
    rw [Amount.least] at lower
    rw [Amount.greatest] at upper
    exact abs_le.mpr ⟨by omega, by omega⟩
  exact_mod_cast bound

theorem Binary.roundHalfAway_intCast (n : Int) : roundHalfAway (n : Rat) = n := by
  have near := (roundsTo_roundHalfAway (n : Rat)).near
  by_contra other
  have apart := Format.one_le_abs_sub (Ne.symm other)
  linarith

namespace Skill

variable {attack : Int} {e : SkillEffect}

/-- There are no blanks around the text of a value. -/
theorem trim_valueText (attack : Int) (e : SkillEffect) :
    Text.trim (valueText attack e) = valueText attack e := by
  have visible : marks.all (fun c => !Text.isBlank c) = true := by decide
  refine (Text.tight_of_visible fun c hc => ?_).trim_eq
  have seen := List.all_eq_true.mp visible c (valueText_subset_marks attack e hc)
  rwa [Bool.not_eq_true'] at seen

theorem valueText_of_intCast (flat : e.kind.isFlatDamage = false) {n : Int}
    (value : e.value = .finite n) :
    valueText attack e =
      signedDecimal (max (-9223372036854775808) (min 9223372036854775807 n)) := by
  have whole : (Binary.finite (n : Rat) : Single).isIntegral = true := by
    simp [Binary.isIntegral]
  rw [valueText, if_neg (by rw [flat]; decide), value, if_pos whole, Binary.roundWithin,
    Binary.roundHalfAway_intCast]

theorem valueText_of_fraction (flat : e.kind.isFlatDamage = false)
    (value : e.value.isIntegral = false) : valueText attack e = e.value.toText := by
  rw [valueText, if_neg (by rw [flat]; decide), if_neg (by rw [value]; decide)]

/-- A finite value in the range of the integers of 64 bits is read back as it is. -/
theorem read?_valueText (flat : e.kind.isFlatDamage = false) (point : e.value.IsPoint) {q : Rat}
    (value : e.value = .finite q) (range : |q| < 2 ^ 63) :
    Binary.read? (valueText attack e) = some e.value := by
  cases whole : e.value.isIntegral with
  | false =>
    rw [valueText_of_fraction flat whole]
    exact Binary.read?_toText Format.single_isProper point
  | true =>
    obtain ⟨n, integral⟩ := Binary.exists_of_isIntegral whole
    have same : (n : Rat) = q := by
      rw [value] at integral
      cases integral
      rfl
    have inside : |n| < 2 ^ 63 := by
      rw [← same] at range
      exact_mod_cast range
    have clamped : max (-9223372036854775808) (min 9223372036854775807 n) = n := by
      have := abs_lt.mp inside
      omega
    rw [valueText_of_intCast flat integral, clamped,
      Binary.read?_of_signed? Format.single_isProper (signed?_signedDecimal n), Binary.ofInt]
    rw [integral] at point ⊢
    rw [Binary.ofRat_of_isPoint point]

/-- The text of a value is an integer of 32 bits exactly if the value is. -/
theorem int32?_valueText (flat : e.kind.isFlatDamage = false) (point : e.value.IsPoint) {n : Int} :
    int32? (valueText attack e) = some n ↔ e.value = .finite n ∧ Amount.InRange n := by
  rw [int32?_eq_some]
  cases whole : e.value.isIntegral with
  | false =>
    have noInteger : ∀ k : Int, e.value ≠ .finite k := by
      intro k same
      rw [same] at whole
      simp [Binary.isIntegral] at whole
    rw [valueText_of_fraction flat whole]
    constructor
    · -- Read as a number it would be an integer.
      rintro ⟨signed, low, high⟩
      have read := Binary.read?_of_signed? Format.single_isProper signed
      rw [Binary.read?_toText Format.single_isProper point] at read
      obtain ⟨k, rounded, -⟩ := Binary.exists_ofInt_eq_of_inRange ⟨low, high⟩
      exact absurd ((Option.some.inj read).trans rounded) (noInteger k)
    · rintro ⟨same, -⟩
      exact absurd same (noInteger n)
  | true =>
    obtain ⟨k, integral⟩ := Binary.exists_of_isIntegral whole
    rw [valueText_of_intCast flat integral, signed?_signedDecimal, integral, Option.some_inj,
      Binary.finite.injEq, Int.cast_inj, Amount.InRange, Amount.least, Amount.greatest]
    omega

/-! ## Reading the text of a value -/

variable {make : Single → Effect} {makeInt : Int → Effect}

theorem read_damage (kind : e.kind.number? = some make) (flat : e.kind.isFlatDamage = true) :
    ∃ n : Int, Effect.readTrimmed e.kind (valueText attack e) = .ok (some (make (.finite n))) ∧
      Format.single.IsNearest
        (Fighter.roundAmount (e.value * Binary.ofInt attack / Ledger.hundred)) n := by
  have range : Amount.InRange
      (Fighter.roundAmount (e.value * Binary.ofInt attack / Ledger.hundred)) :=
    Binary.roundWithin_le (by decide) (by decide) _
  obtain ⟨n, rounded, nearest⟩ := Binary.exists_ofInt_eq_of_inRange range
  have value : Effect.number e.kind (valueText attack e) (valueText attack e) =
      .ok (.finite n) := by
    rw [Effect.number, trim_valueText, valueText, if_pos flat,
      Binary.read?_of_signed? Format.single_isProper (signed?_signedDecimal _), rounded]
  refine ⟨n, ?_, nearest⟩
  rw [Effect.readTrimmed_of_number? kind, value]
  rfl

theorem read_heal (kind : e.kind.number? = some make) (flat : e.kind.isFlatDamage = false)
    (point : e.value.IsPoint) {q : Rat} (value : e.value = .finite q) (range : |q| < 2 ^ 63) :
    Effect.readTrimmed e.kind (valueText attack e) = .ok (some (make (.finite q))) := by
  have same : Effect.number e.kind (valueText attack e) (valueText attack e) =
      .ok (.finite q) := by
    rw [Effect.number, trim_valueText, read?_valueText flat point value range, value]
  rw [Effect.readTrimmed_of_number? kind, same]
  rfl

theorem read_integer (kind : e.kind.integer? = some makeInt) (point : e.value.IsPoint)
    (effect : Option Effect) :
    Effect.readTrimmed e.kind (valueText attack e) = .ok effect ↔
      ∃ n : Int, e.value = .finite n ∧ Amount.InRange n ∧
        (e.kind.isDown = true → n ≠ Amount.least) ∧ effect = some (makeInt n) := by
  have flat := EffectKind.isFlatDamage_of_integer? kind
  rw [Effect.readTrimmed_of_integer? kind, trim_valueText]
  constructor
  · intro ok
    cases found : int32? (valueText attack e) with
    | none =>
      rw [found] at ok
      cases ok
    | some n =>
      rw [found] at ok
      obtain ⟨finite, range⟩ := (int32?_valueText flat point).mp found
      dsimp only at ok
      split at ok
      · cases ok
      · rename_i fits
        cases ok
        exact ⟨n, finite, range, fun down least => fits ⟨down, least⟩, rfl⟩
  · rintro ⟨n, finite, range, fits, rfl⟩
    rw [(int32?_valueText flat point).mpr ⟨finite, range⟩]
    exact if_neg fun wrong => fits wrong.1 wrong.2

/-- What becomes of the value of an effect in a slot. Scaled damage is read as the nearest number,
healing as the value itself, and an integer kind reads an integer that it can hold, and nothing
else. -/
structure ReadsBack (attack : Int) (e : SkillEffect) (s : Slot) : Prop where
  kind : s.kind = e.kind
  damage : ∀ make, e.kind.number? = some make → e.kind.isFlatDamage = true →
    ∃ n : Int, Effect.read s.kind s.value = .ok (some (make (.finite n))) ∧
      Format.single.IsNearest
        (Fighter.roundAmount (e.value * Binary.ofInt attack / Ledger.hundred)) n
  heal : ∀ make, e.kind.number? = some make → e.kind.isFlatDamage = false →
    ∀ q, e.value = .finite q → |q| < 2 ^ 63 →
      Effect.read s.kind s.value = .ok (some (make (.finite q)))
  integer : ∀ make, e.kind.integer? = some make → ∀ effect,
    Effect.read s.kind s.value = .ok effect ↔
      ∃ n : Int, e.value = .finite n ∧ Amount.InRange n ∧
        (e.kind.isDown = true → n ≠ Amount.least) ∧ effect = some (make n)

/-- Every value of every skill, whatever the attack, is read from its slot as its kind demands. -/
theorem readsBack_slots {skill : Skill} {k : Nat} {s : Slot}
    (point : e.value.IsPoint) (effect : skill.effects.items[k]? = some e)
    (slot : (skill.slots attack)[k]? = some s) : ReadsBack attack e s := by
  rw [slots, List.getElem?_map, effect] at slot
  obtain rfl := (Option.some.inj slot).symm
  have read : Effect.read e.kind (String.ofList (valueText attack e)) =
      Effect.readTrimmed e.kind (valueText attack e) := by
    rw [Effect.read, String.toList_ofList, trim_valueText]
  constructor
  case kind => rfl
  case damage =>
    intro make kind flat
    rw [read]
    exact read_damage kind flat
  case heal =>
    intro make kind flat q value range
    rw [read]
    exact read_heal kind flat point value range
  case integer =>
    intro make kind effect
    rw [read]
    exact read_integer kind point effect

/-- A skill that hits, heals and heals by percents. -/
def maul : Skill :=
  { id := "maul", name := "Maul"
    effects := .ofList
      [⟨.singleDamage, .finite 10⟩, ⟨.selfFlatHeal, .finite 4⟩, ⟨.selfPercentHeal, .finite (5 / 2)⟩] }

/-- The text of a half has a point, and is read back. -/
theorem readsBack_slots_maul :
    ReadsBack 125 ⟨.selfPercentHeal, .finite (5 / 2)⟩
      { kind := .selfPercentHeal, value := "2.5", requirement := "" } := by
  have point : (Binary.finite (5 / 2) : Single).IsPoint :=
    ⟨5, -1, by norm_num, by decide, by decide, by decide⟩
  have slot : (maul.slots 125)[2]? =
      some { kind := .selfPercentHeal, value := "2.5", requirement := "" } := by
    decide +kernel
  exact readsBack_slots point rfl slot

end Skill
end CardBattle
