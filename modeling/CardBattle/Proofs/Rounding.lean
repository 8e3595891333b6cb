import Mathlib.Algebra.Order.Field.Power
import Mathlib.Tactic.FieldSimp
import Mathlib.Tactic.Linarith
import Mathlib.Tactic.Positivity
import Mathlib.Tactic.Ring
import CardBattle.Binary.Basic

/-!
# CardBattle.Proofs.Rounding

What rounding to a format gives. The points of a format are said without its rounding: a significand
of at most `precision` bits before a last place between `lowest` and `highest`. Rounding answers a
point, no point is nearer to the rational that is rounded, and of two equally near ones it is the
even one.

* `Format.floorLog2_spec`, `Format.abs_sub_roundEven_le`: the exponent and the integer that rounding
  is made of.
* `Format.IsPoint`, `Format.IsNearest`: the points, and the nearest one.
* `Format.abs_sub_nearest_le`: nothing on the grid is nearer than `Format.nearest`.
* `Binary.ofRat_isNearest`, `Binary.ofRat_of_isPoint`: rounding, and rounding of a point.
-/

namespace CardBattle
namespace Format

/-! ## Exponents -/

theorem pow2_eq_zpow (e : Int) : pow2 e = (2 : Rat) ^ e := by
  cases e with
  | ofNat n => simp [pow2]
  | negSucc n => simp [pow2, Rat.mkRat_eq_div, zpow_negSucc]

theorem magnitude_eq_abs (q : Rat) : magnitude q = |q| := by
  unfold magnitude
  split
  · rename_i negative
    exact (abs_of_neg negative).symm
  · rename_i nonneg
    exact (abs_of_nonneg (not_lt.mp nonneg)).symm

theorem zpow_two_pos (e : Int) : (0 : Rat) < 2 ^ e := zpow_pos (by norm_num) e

theorem zpow_two_lt {d e : Int} : (2 : Rat) ^ d < 2 ^ e ↔ d < e :=
  zpow_lt_zpow_iff_right₀ (by norm_num)

theorem zpow_two_le {d e : Int} : (2 : Rat) ^ d ≤ 2 ^ e ↔ d ≤ e :=
  zpow_le_zpow_iff_right₀ (by norm_num)

theorem zpow_two_add (d e : Int) : (2 : Rat) ^ (d + e) = 2 ^ d * 2 ^ e :=
  zpow_add₀ (by norm_num) d e

/-- A natural number lies between two powers of two. -/
theorem log2_spec {n : Nat} (pos : n ≠ 0) :
    (2 : Rat) ^ (Nat.log2 n : Int) ≤ n ∧ (n : Rat) < 2 ^ ((Nat.log2 n : Int) + 1) := by
  have low : 2 ^ Nat.log2 n ≤ n := Nat.log2_self_le pos
  have high : n < 2 ^ (Nat.log2 n + 1) := Nat.lt_log2_self
  constructor
  · rw [zpow_natCast]
    exact_mod_cast low
  · have cast : (Nat.log2 n : Int) + 1 = ((Nat.log2 n + 1 : Nat) : Int) := rfl
    rw [cast, zpow_natCast]
    exact_mod_cast high

theorem floorLog2_spec {q : Rat} (pos : 0 < q) :
    (2 : Rat) ^ floorLog2 q ≤ q ∧ q < 2 ^ (floorLog2 q + 1) := by
  have numPos : 0 < q.num := Rat.num_pos.mpr pos
  have numAbs : ((q.num.natAbs : Nat) : Rat) = q.num := by
    rw [Nat.cast_natAbs, abs_of_pos numPos]
  have denPos : (0 : Rat) < q.den := Nat.cast_pos.mpr q.pos
  have quotient : q * q.den = q.num := Rat.mul_den_eq_num q
  obtain ⟨numLow, numHigh⟩ := log2_spec (n := q.num.natAbs) (by omega)
  obtain ⟨denLow, denHigh⟩ := log2_spec (n := q.den) q.den_nz
  rw [numAbs] at numLow numHigh
  have shape : floorLog2 q =
      if pow2 ((Nat.log2 q.num.natAbs : Int) - Nat.log2 q.den) ≤ q then
        (Nat.log2 q.num.natAbs : Int) - Nat.log2 q.den
      else (Nat.log2 q.num.natAbs : Int) - Nat.log2 q.den - 1 := rfl
  rw [shape, pow2_eq_zpow]
  generalize (Nat.log2 q.num.natAbs : Int) = a at *
  generalize (Nat.log2 q.den : Int) = b at *
  have low : (2 : Rat) ^ (a - b - 1) ≤ q := by
    refine le_of_mul_le_mul_right ?_ denPos
    calc (2 : Rat) ^ (a - b - 1) * q.den
        ≤ 2 ^ (a - b - 1) * 2 ^ (b + 1) :=
          mul_le_mul_of_nonneg_left denHigh.le (zpow_two_pos _).le
      _ = 2 ^ a := by rw [← zpow_two_add]; congr 1; omega
      _ ≤ q * q.den := by rw [quotient]; exact numLow
  have high : q < (2 : Rat) ^ (a - b + 1) := by
    refine lt_of_mul_lt_mul_right ?_ denPos.le
    calc q * q.den
        < 2 ^ (a + 1) := by rw [quotient]; exact numHigh
      _ = 2 ^ (a - b + 1) * 2 ^ b := by rw [← zpow_two_add]; congr 1; omega
      _ ≤ 2 ^ (a - b + 1) * q.den := mul_le_mul_of_nonneg_left denLow (zpow_two_pos _).le
  split
  · rename_i reached
    exact ⟨reached, high⟩
  · rename_i missed
    exact ⟨low, by rw [sub_add_cancel]; exact not_le.mp missed⟩

/-! ## The nearest integer -/

theorem roundEven_intCast (n : Int) : roundEven (n : Rat) = n := by
  simp [roundEven, Rat.floor_intCast]

theorem abs_sub_roundEven_le (x : Rat) : |x - roundEven x| ≤ 1 / 2 := by
  have below := Rat.floor_le x
  have above : x - 1 < x.floor := Rat.lt_floor
  unfold roundEven
  dsimp only
  split
  · exact abs_le.mpr ⟨by linarith, by linarith⟩
  · split
    · push_cast
      exact abs_le.mpr ⟨by linarith, by linarith⟩
    · split
      · exact abs_le.mpr ⟨by linarith, by linarith⟩
      · push_cast
        exact abs_le.mpr ⟨by linarith, by linarith⟩

theorem even_roundEven {x : Rat} (tie : |x - roundEven x| = 1 / 2) : Even (roundEven x) := by
  have below := Rat.floor_le x
  have above : x - 1 < x.floor := Rat.lt_floor
  by_cases low : x - x.floor < 1 / 2
  · have down : roundEven x = x.floor := by simp only [roundEven, if_pos low]
    rw [down, abs_of_nonneg (by linarith)] at tie
    linarith
  · by_cases high : 1 / 2 < x - x.floor
    · have up : roundEven x = x.floor + 1 := by simp only [roundEven, if_neg low, if_pos high]
      rw [up, Int.cast_add, Int.cast_one, abs_of_neg (by linarith)] at tie
      linarith
    · simp only [roundEven, if_neg low, if_neg high]
      split
      · rename_i even
        exact Int.even_iff.mpr even
      · rename_i odd
        exact Int.even_iff.mpr (by omega)

theorem one_le_abs_sub {m n : Int} (h : m ≠ n) : (1 : Rat) ≤ |(m : Rat) - n| := by
  have step : 1 ≤ |m - n| := Int.one_le_abs (sub_ne_zero.mpr h)
  exact_mod_cast step

/-- No integer is nearer. -/
theorem abs_sub_roundEven_le_intCast (x : Rat) (n : Int) : |x - roundEven x| ≤ |x - n| := by
  by_cases same : n = roundEven x
  · rw [same]
  · have apart := one_le_abs_sub same
    have near := abs_sub_roundEven_le x
    have triangle := abs_sub_le (n : Rat) x (roundEven x)
    rw [abs_sub_comm (n : Rat) x] at triangle
    linarith

/-- Where two integers are equally near, the rational is half-way between them. -/
theorem tie_of_abs_eq {x : Rat} {n : Int} (other : n ≠ roundEven x)
    (equal : |x - n| = |x - roundEven x|) :
    |x - roundEven x| = 1 / 2 ∧ |(n : Rat) - roundEven x| = 1 := by
  have apart := one_le_abs_sub other
  have near := abs_sub_roundEven_le x
  have triangle := abs_sub_le (n : Rat) x (roundEven x)
  rw [abs_sub_comm (n : Rat) x, equal] at triangle
  constructor <;> linarith

/-! ## The grid of a rational -/

/-- A significand of at most `precision` bits, and a last place of the format before it. -/
def IsPoint (f : Format) (q : Rat) : Prop :=
  ∃ m e : Int, q = m * 2 ^ e ∧ m.natAbs < 2 ^ f.precision ∧ f.lowest ≤ e ∧ e ≤ f.highest

/-- The point nearest to a rational. Of two equally near points it is the one that is an even
multiple of the distance between them. -/
structure IsNearest (f : Format) (q r : Rat) : Prop where
  point : f.IsPoint r
  near : ∀ p, f.IsPoint p → |q - r| ≤ |q - p|
  tie : ∀ p, f.IsPoint p → p ≠ r → |q - p| = |q - r| → ∃ k : Int, r = 2 * k * |p - r|

variable {f : Format} {q : Rat} {m e : Int}

theorem nearest_of_ne_zero (h : q ≠ 0) :
    f.nearest q = roundEven (q / 2 ^ f.lastPlace q) * 2 ^ f.lastPlace q := by
  simp only [nearest, if_neg h, pow2_eq_zpow]

theorem lastPlace_eq (f : Format) (q : Rat) :
    f.lastPlace q = max f.lowest (floorLog2 |q| + 1 - f.precision) := by
  rw [lastPlace, magnitude_eq_abs]

theorem lastPlace_le (h : q ≠ 0) (small : |q| < 2 ^ (e + f.precision)) (low : f.lowest ≤ e) :
    f.lastPlace q ≤ e := by
  have reached := (floorLog2_spec (abs_pos.mpr h)).1
  have exponent := zpow_two_lt.mp (lt_of_le_of_lt reached small)
  rw [lastPlace_eq]
  omega

theorem abs_lt_of_lastPlace (h : q ≠ 0) : |q| < 2 ^ (f.lastPlace q + f.precision) := by
  refine lt_of_lt_of_le (floorLog2_spec (abs_pos.mpr h)).2 (zpow_two_le.mpr ?_)
  rw [lastPlace_eq]
  omega

theorem le_abs_of_lastPlace (h : q ≠ 0) (normal : f.lowest < f.lastPlace q) :
    2 ^ (f.lastPlace q + f.precision - 1) ≤ |q| := by
  refine le_trans (zpow_two_le.mpr ?_) (floorLog2_spec (abs_pos.mpr h)).1
  rw [lastPlace_eq] at normal ⊢
  omega

/-- A multiple of a power of two, for lower powers of two. -/
theorem exists_multiple {d : Int} (le : d ≤ e) (m : Int) :
    ∃ k : Int, (m : Rat) * 2 ^ e = k * 2 ^ d := by
  obtain ⟨n, rfl⟩ := Int.le.dest le
  refine ⟨m * 2 ^ n, ?_⟩
  rw [zpow_two_add, zpow_natCast]
  push_cast
  ring

theorem abs_lt_of_significand (size : m.natAbs < 2 ^ f.precision) :
    |(m : Rat) * 2 ^ e| < 2 ^ (e + f.precision) := by
  have significand : |(m : Rat)| < 2 ^ f.precision := by
    rw [← Int.cast_abs, Int.abs_eq_natAbs]
    exact_mod_cast size
  rw [abs_mul, abs_of_pos (zpow_two_pos e), zpow_two_add, mul_comm, zpow_natCast]
  exact mul_lt_mul_of_pos_left significand (zpow_two_pos e)

theorem abs_sub_mul (unit : Rat) (pos : 0 < unit) (n : Int) :
    |q - n * unit| = |q / unit - n| * unit := by
  rw [← abs_of_pos pos, ← abs_mul, abs_of_pos pos]
  congr 1
  field_simp

theorem nearest_zero (f : Format) : f.nearest 0 = 0 := by simp [nearest]

/-- A number of at most `precision` bits is its own nearest one. -/
theorem nearest_eq_self (size : m.natAbs < 2 ^ f.precision) (low : f.lowest ≤ e) :
    f.nearest ((m : Rat) * 2 ^ e) = m * 2 ^ e := by
  by_cases zero : (m : Rat) * 2 ^ e = 0
  · rw [zero, nearest_zero]
  · have place := lastPlace_le zero (abs_lt_of_significand size) low
    obtain ⟨k, multiple⟩ := exists_multiple place m
    rw [nearest_of_ne_zero zero]
    generalize f.lastPlace ((m : Rat) * 2 ^ e) = d at multiple
    rw [multiple, mul_div_assoc, div_self (zpow_two_pos d).ne', mul_one, roundEven_intCast]

/-- What lies below the last place of a rational lies farther from it than the powers of two below
the rational. -/
theorem abs_sub_nearest_lt (precision : 0 < f.precision) (h : q ≠ 0)
    (size : m.natAbs < 2 ^ f.precision) (low : f.lowest ≤ e) (fine : e < f.lastPlace q) :
    |q - f.nearest q| < |q - m * 2 ^ e| := by
  have reached := le_abs_of_lastPlace h (lt_of_le_of_lt low fine)
  rw [nearest_of_ne_zero h]
  generalize f.lastPlace q = d at *
  have small : |(m : Rat) * 2 ^ e| < 2 ^ (d + f.precision - 1) :=
    lt_of_lt_of_le (abs_lt_of_significand size) (zpow_two_le.mpr (by omega))
  -- The power of two up to the rational is on its grid, on the side of the rational.
  obtain ⟨k, power⟩ : ∃ k : Int, ((2 : Rat) ^ (d + f.precision - 1)) = k * 2 ^ d := by
    obtain ⟨k, multiple⟩ := exists_multiple (show d ≤ d + f.precision - 1 by omega) 1
    exact ⟨k, by rw [← multiple]; simp⟩
  have between : ∃ n : Int, |q - n * 2 ^ d| ≤ |q| - 2 ^ (d + f.precision - 1) := by
    rcases le_total 0 q with positive | negative
    · refine ⟨k, ?_⟩
      rw [abs_of_nonneg positive] at reached ⊢
      rw [← power, abs_of_nonneg (by linarith)]
    · refine ⟨-k, ?_⟩
      rw [abs_of_nonpos negative] at reached ⊢
      rw [Int.cast_neg, neg_mul, ← power, sub_neg_eq_add, abs_of_nonpos (by linarith)]
      linarith
  obtain ⟨n, between⟩ := between
  have chosen : |q - roundEven (q / 2 ^ d) * 2 ^ d| ≤ |q - n * 2 ^ d| := by
    rw [abs_sub_mul _ (zpow_two_pos d), abs_sub_mul _ (zpow_two_pos d)]
    exact mul_le_mul_of_nonneg_right (abs_sub_roundEven_le_intCast _ n) (zpow_two_pos d).le
  have distance := abs_sub_abs_le_abs_sub q (m * 2 ^ e)
  linarith

/-- Nothing of at most `precision` bits is nearer. -/
theorem abs_sub_nearest_le (precision : 0 < f.precision) (q : Rat)
    (size : m.natAbs < 2 ^ f.precision) (low : f.lowest ≤ e) :
    |q - f.nearest q| ≤ |q - m * 2 ^ e| := by
  by_cases zero : q = 0
  · rw [zero, nearest_zero, sub_zero, abs_zero]
    exact abs_nonneg _
  · rcases lt_or_ge e (f.lastPlace q) with fine | coarse
    · exact (abs_sub_nearest_lt precision zero size low fine).le
    · obtain ⟨n, multiple⟩ := exists_multiple coarse m
      rw [multiple, nearest_of_ne_zero zero, abs_sub_mul _ (zpow_two_pos _),
        abs_sub_mul _ (zpow_two_pos _)]
      exact mul_le_mul_of_nonneg_right (abs_sub_roundEven_le_intCast _ n) (zpow_two_pos _).le

/-- Of two equally near ones it is the even one. -/
theorem even_nearest (precision : 0 < f.precision) (size : m.natAbs < 2 ^ f.precision)
    (low : f.lowest ≤ e) (other : (m : Rat) * 2 ^ e ≠ f.nearest q)
    (equal : |q - m * 2 ^ e| = |q - f.nearest q|) :
    ∃ k : Int, f.nearest q = 2 * k * |m * 2 ^ e - f.nearest q| := by
  by_cases zero : q = 0
  · refine ⟨0, ?_⟩
    rw [zero, nearest_zero]
    simp
  · rcases lt_or_ge e (f.lastPlace q) with fine | coarse
    · have near := abs_sub_nearest_lt precision zero size low fine
      rw [equal] at near
      exact absurd near (lt_irrefl _)
    · obtain ⟨n, multiple⟩ := exists_multiple coarse m
      have unit := zpow_two_pos (f.lastPlace q)
      rw [multiple, nearest_of_ne_zero zero] at other equal ⊢
      rw [abs_sub_mul _ unit, abs_sub_mul _ unit, mul_left_inj' unit.ne'] at equal
      have another : n ≠ roundEven (q / 2 ^ f.lastPlace q) := by
        intro same
        rw [same] at other
        exact other rfl
      obtain ⟨half, step⟩ := tie_of_abs_eq another equal
      obtain ⟨k, even⟩ := even_roundEven half
      refine ⟨k, ?_⟩
      rw [← sub_mul, abs_mul, step, abs_of_pos unit, even]
      push_cast
      ring

/-- The powers of two are on the grid, on both sides of zero. -/
theorem abs_sub_nearest_le_zpow (precision : 0 < f.precision) (q : Rat) (low : f.lowest ≤ e) :
    |q - f.nearest q| ≤ |q - 2 ^ e| ∧ |q - f.nearest q| ≤ |q + 2 ^ e| := by
  have one : (1 : Int).natAbs < 2 ^ f.precision := Nat.one_lt_two_pow precision.ne'
  have minus : (-1 : Int).natAbs < 2 ^ f.precision := Nat.one_lt_two_pow precision.ne'
  have above := abs_sub_nearest_le precision q one low
  have below := abs_sub_nearest_le precision q minus low
  rw [Int.cast_one, one_mul] at above
  rw [Int.cast_neg, Int.cast_one, neg_one_mul, sub_neg_eq_add] at below
  exact ⟨above, below⟩

/-- Powers of two at least as large as a rational bound what it is rounded to. -/
theorem abs_nearest_le (precision : 0 < f.precision) (low : f.lowest ≤ e) (h : |q| ≤ 2 ^ e) :
    |f.nearest q| ≤ 2 ^ e := by
  obtain ⟨above, below⟩ := abs_sub_nearest_le_zpow precision q low
  obtain ⟨lower, upper⟩ := abs_le.mp h
  rw [abs_of_nonpos (show q - 2 ^ e ≤ 0 by linarith)] at above
  rw [abs_of_nonneg (show 0 ≤ q + 2 ^ e by linarith)] at below
  exact abs_le.mpr ⟨by linarith [(abs_le.mp below).2], by linarith [(abs_le.mp above).1]⟩

/-- Powers of two up to a rational are not passed by what it is rounded to. -/
theorem le_abs_nearest (precision : 0 < f.precision) (low : f.lowest ≤ e) (h : 2 ^ e ≤ |q|) :
    2 ^ e ≤ |f.nearest q| := by
  obtain ⟨above, below⟩ := abs_sub_nearest_le_zpow precision q low
  rcases le_total 0 q with positive | negative
  · rw [abs_of_nonneg positive] at h
    rw [abs_of_nonneg (show 0 ≤ q - 2 ^ e by linarith)] at above
    exact le_abs.mpr (.inl (by linarith [(abs_le.mp above).2]))
  · rw [abs_of_nonpos negative] at h
    rw [abs_of_nonpos (show q + 2 ^ e ≤ 0 by linarith)] at below
    exact le_abs.mpr (.inr (by linarith [(abs_le.mp below).1]))

/-- What an integer is rounded to is an integer. -/
theorem exists_nearest_intCast (f : Format) (n : Int) : ∃ k : Int, f.nearest (n : Rat) = k := by
  by_cases zero : (n : Rat) = 0
  · exact ⟨0, by rw [zero, nearest_zero, Int.cast_zero]⟩
  · rw [nearest_of_ne_zero zero]
    generalize f.lastPlace (n : Rat) = d
    rcases le_total 0 d with whole | fraction
    · obtain ⟨k, multiple⟩ := exists_multiple whole (roundEven (n / 2 ^ d))
      exact ⟨k, by rw [multiple, zpow_zero, mul_one]⟩
    · obtain ⟨k, multiple⟩ := exists_multiple fraction n
      rw [zpow_zero, mul_one] at multiple
      refine ⟨n, ?_⟩
      rw [multiple, mul_div_assoc, div_self (zpow_two_pos d).ne', mul_one, roundEven_intCast]

/-! ## Points -/

/-- A format with at least one bit, whose last place can be that of the integers. -/
structure IsProper (f : Format) : Prop where
  precision : 0 < f.precision
  lowest : f.lowest ≤ 0
  highest : 0 ≤ f.highest

theorem single_isProper : single.IsProper := ⟨by decide, by decide, by decide⟩

theorem largest_eq (f : Format) : f.largest = (2 ^ f.precision - 1) * 2 ^ f.highest := by
  simp [largest, pow2_eq_zpow]

theorem largest_lt (f : Format) : f.largest < 2 ^ (f.highest + f.precision) := by
  have unit := zpow_two_pos f.highest
  rw [largest_eq, zpow_two_add, zpow_natCast, mul_comm]
  exact mul_lt_mul_of_pos_left (by linarith) unit

theorem le_largest (proper : f.IsProper) (le : e ≤ f.highest) : 2 ^ e ≤ f.largest := by
  have bits : (2 : Rat) ≤ 2 ^ f.precision := by
    exact_mod_cast Nat.pow_le_pow_right (by decide : 0 < 2) proper.precision
  have unit := zpow_two_pos f.highest
  rw [largest_eq]
  calc (2 : Rat) ^ e ≤ 2 ^ f.highest := zpow_two_le.mpr le
    _ = 1 * 2 ^ f.highest := (one_mul _).symm
    _ ≤ (2 ^ f.precision - 1) * 2 ^ f.highest :=
      mul_le_mul_of_nonneg_right (by linarith) unit.le

theorem IsPoint.abs_le_largest (h : f.IsPoint q) : |q| ≤ f.largest := by
  obtain ⟨m, e, rfl, size, -, high⟩ := h
  have significand : |(m : Rat)| ≤ 2 ^ f.precision - 1 := by
    have step : (m.natAbs : Rat) + 1 ≤ 2 ^ f.precision := by exact_mod_cast size
    rw [← Int.cast_abs, Int.abs_eq_natAbs, Int.cast_natCast]
    linarith
  rw [abs_mul, abs_of_pos (zpow_two_pos e), largest_eq]
  exact mul_le_mul significand (zpow_two_le.mpr high) (zpow_two_pos e).le
    (le_trans (abs_nonneg _) significand)

theorem IsPoint.abs (h : f.IsPoint q) : f.IsPoint |q| := by
  obtain ⟨m, e, rfl, size, low, high⟩ := h
  refine ⟨|m|, e, ?_, by rw [Int.natAbs_abs]; exact size, low, high⟩
  rw [abs_mul, abs_of_pos (zpow_two_pos e), Int.cast_abs]

theorem IsPoint.nearest_eq (h : f.IsPoint q) : f.nearest q = q := by
  obtain ⟨m, e, rfl, size, low, -⟩ := h
  exact nearest_eq_self size low

/-- A significand that has been rounded up to the next power of two has one bit too many, and
stands for a point with the next last place. -/
theorem isPoint_of_carry (proper : f.IsProper) (carry : m.natAbs = 2 ^ f.precision)
    (low : f.lowest ≤ e) (high : e < f.highest) : f.IsPoint (m * 2 ^ e) := by
  obtain ⟨n, bits⟩ := Nat.exists_eq_succ_of_ne_zero proper.precision.ne'
  rw [bits, Nat.succ_eq_add_one, pow_succ] at carry
  have nonzero : m ≠ 0 := by
    rintro rfl
    have positive := Nat.two_pow_pos n
    simp at carry
  have half : m = m.sign * 2 ^ n * 2 := by
    conv_lhs => rw [← Int.sign_mul_natAbs m, carry]
    push_cast
    ring
  refine ⟨m.sign * 2 ^ n, e + 1, ?_, ?_, by omega, by omega⟩
  · rw [zpow_two_add, zpow_one]
    conv_lhs => rw [half]
    push_cast
    ring
  · rw [Int.natAbs_mul, Int.natAbs_sign_of_ne_zero nonzero, one_mul, Int.natAbs_pow, bits]
    exact Nat.pow_lt_pow_right (by decide) (Nat.lt_succ_self n)

/-- Below the largest point the last place is one of the format. -/
theorem lastPlace_le_highest (proper : f.IsProper) (zero : q ≠ 0)
    (bounded : |f.nearest q| ≤ f.largest) : f.lastPlace q ≤ f.highest := by
  have range := proper.lowest.trans proper.highest
  by_contra beyond
  have normal := le_abs_of_lastPlace zero (show f.lowest < f.lastPlace q by omega)
  have bits := proper.precision
  have reached := le_abs_nearest bits (by omega) normal
  have exponents := zpow_two_lt.mp (lt_of_le_of_lt (reached.trans bounded) f.largest_lt)
  omega

/-- Up to the largest point, rounding gives a point. -/
theorem isPoint_nearest (proper : f.IsProper) (bounded : |f.nearest q| ≤ f.largest) :
    f.IsPoint (f.nearest q) := by
  by_cases zero : q = 0
  · rw [zero, nearest_zero]
    exact ⟨0, f.lowest, by simp, by simp, le_refl _, proper.lowest.trans proper.highest⟩
  · have low : f.lowest ≤ f.lastPlace q := le_max_left _ _
    have high := lastPlace_le_highest proper zero bounded
    have strict := lt_of_le_of_lt bounded f.largest_lt
    have most := abs_nearest_le proper.precision
      (show f.lowest ≤ f.lastPlace q + f.precision by omega) (abs_lt_of_lastPlace zero).le
    rw [nearest_of_ne_zero zero] at most strict ⊢
    generalize roundEven (q / 2 ^ f.lastPlace q) = r at *
    generalize f.lastPlace q = d at *
    have unit := zpow_two_pos d
    have size : |(r : Rat) * 2 ^ d| = 2 ^ d * (r.natAbs : Rat) := by
      rw [abs_mul, abs_of_pos unit, ← Int.cast_abs, Int.abs_eq_natAbs, Int.cast_natCast, mul_comm]
    rw [size] at most strict
    rw [zpow_two_add, zpow_natCast] at most
    have bits : (r.natAbs : Rat) ≤ ((2 ^ f.precision : Nat) : Rat) := by
      rw [Nat.cast_pow, Nat.cast_ofNat]
      exact le_of_mul_le_mul_left most unit
    rcases (Nat.cast_le.mp bits).lt_or_eq with fits | carry
    · exact ⟨r, d, rfl, fits, low, high⟩
    · rw [carry, Nat.cast_pow, Nat.cast_ofNat, ← zpow_natCast, ← zpow_two_add] at strict
      have below := zpow_two_lt.mp strict
      exact isPoint_of_carry proper carry low (by omega)

/-! ## Opposites, and what is too small or too large -/

theorem roundEven_neg (x : Rat) : roundEven (-x) = -roundEven x := by
  have mirror : ∀ n : Int, |-x - n| = |x - (-n : Int)| := by
    intro n
    rw [Int.cast_neg, sub_neg_eq_add, ← abs_neg]
    congr 1
    ring
  have there := abs_sub_roundEven_le_intCast x (-roundEven (-x))
  have back := abs_sub_roundEven_le_intCast (-x) (-roundEven x)
  rw [mirror, mirror, neg_neg] at back
  by_contra differ
  have other : -roundEven (-x) ≠ roundEven x := fun same => differ (by rw [← same, neg_neg])
  obtain ⟨half, step⟩ := tie_of_abs_eq other (le_antisymm back there)
  have half' : |-x - roundEven (-x)| = 1 / 2 := by
    rw [mirror, ← half]
    exact le_antisymm back there
  -- Both are even, and one apart.
  obtain ⟨a, evenHere⟩ := even_roundEven half
  obtain ⟨b, evenThere⟩ := even_roundEven half'
  have apart : |-roundEven (-x) - roundEven x| = 1 := by exact_mod_cast step
  rw [evenHere, evenThere] at apart
  rcases (abs_eq (by decide)).mp apart with up | down <;> omega

theorem nearest_neg (f : Format) (q : Rat) : f.nearest (-q) = -f.nearest q := by
  have place : f.lastPlace (-q) = f.lastPlace q := by rw [lastPlace_eq, lastPlace_eq, abs_neg]
  by_cases zero : q = 0
  · rw [zero, neg_zero, nearest_zero, neg_zero]
  · rw [nearest_of_ne_zero zero, nearest_of_ne_zero (neg_ne_zero.mpr zero), place, neg_div,
      roundEven_neg, Int.cast_neg, neg_mul]

theorem nearest_nonneg (precision : 0 < f.precision) (h : 0 ≤ q) : 0 ≤ f.nearest q := by
  have near := abs_sub_nearest_le precision q (show (0 : Int).natAbs < 2 ^ f.precision by simp)
    (le_refl f.lowest)
  rw [Int.cast_zero, zero_mul, sub_zero, abs_of_nonneg h] at near
  linarith [(abs_le.mp near).2]

/-- Less than half of the finest last place is rounded to nothing. -/
theorem nearest_of_small (h : |q| < 2 ^ (f.lowest - 1)) : f.nearest q = 0 := by
  by_cases zero : q = 0
  · rw [zero, nearest_zero]
  · have unit := zpow_two_pos (f.lastPlace q)
    have low : f.lowest ≤ f.lastPlace q := le_max_left _ _
    have less : |q / 2 ^ f.lastPlace q| < 1 / 2 := by
      rw [abs_div, abs_of_pos unit, div_lt_iff₀ unit]
      calc |q| < 2 ^ (f.lowest - 1) := h
        _ ≤ 2 ^ (-1 + f.lastPlace q) := zpow_two_le.mpr (by omega)
        _ = 1 / 2 * 2 ^ f.lastPlace q := by rw [zpow_two_add]; norm_num
    have near := abs_sub_roundEven_le (q / 2 ^ f.lastPlace q)
    have triangle := abs_sub_abs_le_abs_sub (roundEven (q / 2 ^ f.lastPlace q) : Rat)
      (q / 2 ^ f.lastPlace q)
    rw [abs_sub_comm] at triangle
    have nothing : |roundEven (q / 2 ^ f.lastPlace q)| < 1 := by
      have bound : |(roundEven (q / 2 ^ f.lastPlace q) : Rat)| < 1 := by linarith
      exact_mod_cast bound
    rw [nearest_of_ne_zero zero, Int.abs_lt_one_iff.mp nothing, Int.cast_zero, zero_mul]

end Format

/-! ## Rounding -/

namespace Binary

open Format

variable {f : Format} {q r : Rat}

/-- What is no number and the infinities are in every format, a rational if it is a point. -/
def IsPoint : Binary f → Prop
  | .finite q => f.IsPoint q
  | _ => True

theorem ofRat_of_abs_le (h : |f.nearest q| ≤ f.largest) :
    (ofRat q : Binary f) = .finite (f.nearest q) := by
  obtain ⟨lower, upper⟩ := abs_le.mp h
  simp only [ofRat, if_neg (not_lt.mpr upper), if_neg (not_lt.mpr lower)]

theorem eq_nearest_of_ofRat (h : (ofRat q : Binary f) = .finite r) :
    r = f.nearest q ∧ |f.nearest q| ≤ f.largest := by
  unfold ofRat at h
  dsimp only at h
  split at h
  · cases h
  · rename_i upper
    split at h
    · cases h
    · rename_i lower
      cases h
      exact ⟨rfl, abs_le.mpr ⟨not_lt.mp lower, not_lt.mp upper⟩⟩

theorem ofRat_of_isPoint (h : f.IsPoint q) : (ofRat q : Binary f) = .finite q := by
  have bounded := h.abs_le_largest
  rw [← h.nearest_eq] at bounded
  rw [ofRat_of_abs_le bounded, h.nearest_eq]

theorem ofRat_of_large (proper : f.IsProper) (h : 2 ^ (f.highest + f.precision) ≤ q) :
    (ofRat q : Binary f) = .infinite false := by
  have positive : 0 ≤ q := (zpow_two_pos _).le.trans h
  have low : f.lowest ≤ f.highest + f.precision := by
    have := proper.lowest.trans proper.highest
    omega
  have reached := le_abs_nearest proper.precision low (h.trans (le_abs_self q))
  rw [abs_of_nonneg (nearest_nonneg proper.precision positive)] at reached
  simp only [ofRat, if_pos (lt_of_lt_of_le f.largest_lt reached)]

theorem ofRat_neg (proper : f.IsProper) (q : Rat) : (ofRat (-q) : Binary f) = neg (ofRat q) := by
  have positive := lt_of_lt_of_le (zpow_two_pos _) (le_largest proper (le_refl f.highest))
  simp only [ofRat, nearest_neg]
  by_cases above : f.largest < f.nearest q
  · rw [if_neg (by linarith), if_pos (by linarith), if_pos above]
    rfl
  · by_cases below : f.nearest q < -f.largest
    · rw [if_pos (by linarith), if_neg above, if_pos below]
      rfl
    · rw [if_neg (by linarith), if_neg (by linarith), if_neg above, if_neg below]
      rfl

/-- A rational is rounded to the nearest point. -/
theorem ofRat_isNearest (proper : f.IsProper) (h : (ofRat q : Binary f) = .finite r) :
    f.IsNearest q r := by
  obtain ⟨rfl, bounded⟩ := eq_nearest_of_ofRat h
  constructor
  · exact isPoint_nearest proper bounded
  · rintro p ⟨m, e, rfl, size, low, -⟩
    exact abs_sub_nearest_le proper.precision q size low
  · rintro p ⟨m, e, rfl, size, low, -⟩ other equal
    exact even_nearest proper.precision size low other equal

theorem isPoint_ofRat (proper : f.IsProper) (q : Rat) : (ofRat q : Binary f).IsPoint := by
  cases rounded : (ofRat q : Binary f) with
  | finite r => exact (ofRat_isNearest proper rounded).point
  | _ => trivial

/-- Integers up to the highest last place are in the range of the format. -/
theorem exists_ofInt_eq (proper : f.IsProper) {n : Int} {e : Int} (nonneg : 0 ≤ e)
    (high : e ≤ f.highest) (h : |(n : Rat)| ≤ 2 ^ e) :
    ∃ k : Int, (ofInt n : Binary f) = .finite k ∧ f.IsNearest n k := by
  have low : f.lowest ≤ e := proper.lowest.trans nonneg
  have bounded := (abs_nearest_le proper.precision low h).trans (le_largest proper high)
  obtain ⟨k, whole⟩ := exists_nearest_intCast f n
  have rounded : (ofInt n : Binary f) = .finite k := by
    rw [ofInt, ofRat_of_abs_le bounded, whole]
  exact ⟨k, rounded, ofRat_isNearest proper rounded⟩

end Binary
end CardBattle
