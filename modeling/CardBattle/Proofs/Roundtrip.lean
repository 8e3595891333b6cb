import CardBattle.Proofs.Numerals
import CardBattle.Proofs.Rounding

/-!
# CardBattle.Proofs.Roundtrip

Numbers of a format and their decimal texts. A numeral means its exact value, rounded once, also
where the reader does not compute that value. The text of a point is read back as that point, and
the text of an integer as what the integer is rounded to.

* `Decimal.round_eq_ofRat`: the shortcuts of the reader are right.
* `Decimal.exists_unsigned?_positional`: the value of a written numeral.
* `Decimal.ofRat_shortest`: the shortest numeral of a point is rounded to the point.
* `Binary.read?_toText`, `Binary.read?_of_signed?`: what is read back.
-/

namespace CardBattle

open Numeral Format

variable {f : Format}

/-! ## The value of a numeral -/

namespace Decimal

theorem pow10_eq_zpow (e : Int) : pow10 e = (10 : Rat) ^ e := by
  cases e with
  | ofNat n => simp [pow10]
  | negSucc n => simp [pow10, Rat.mkRat_eq_div, zpow_negSucc]

theorem zpow_ten_pos (e : Int) : (0 : Rat) < 10 ^ e := zpow_pos (by norm_num) e

theorem zpow_eight (e : Int) : (8 : Rat) ^ e = 2 ^ (3 * e) := by
  rw [zpow_mul]
  norm_num

theorem zpow_eight_le_ten {e : Int} (h : 0 ≤ e) : (2 : Rat) ^ (3 * e) ≤ 10 ^ e := by
  rw [← zpow_eight]
  exact zpow_le_zpow_left₀ h (by norm_num) (by norm_num)

theorem zpow_ten_le_eight {e : Int} (h : e ≤ 0) : (10 : Rat) ^ e ≤ 2 ^ (3 * e) := by
  have opposite := zpow_eight_le_ten (show 0 ≤ -e by omega)
  rw [mul_neg, zpow_neg, zpow_neg] at opposite
  exact (inv_le_inv₀ (zpow_two_pos _) (zpow_ten_pos _)).mp opposite

theorem size_eq (d : Decimal) : d.size = d.significand * 10 ^ d.exponent := by
  rw [size, pow10_eq_zpow]

theorem size_nonneg (d : Decimal) : 0 ≤ d.size := by
  rw [size_eq]
  have power := zpow_ten_pos d.exponent
  positivity

theorem ofRat_value (proper : f.IsProper) (d : Decimal) : (Binary.ofRat d.value : Binary f) =
    if d.negative then Binary.neg (Binary.ofRat d.size) else Binary.ofRat d.size := by
  unfold value
  split
  · exact Binary.ofRat_neg proper d.size
  · rfl

/-- A power of ten beyond the range is not computed. -/
theorem ofRat_size_of_large (proper : f.IsProper) {d : Decimal} (nonzero : d.significand ≠ 0)
    (large : f.highest + f.precision < 3 * d.exponent) :
    (Binary.ofRat d.size : Binary f) = .infinite false := by
  have positive : 0 ≤ d.exponent := by
    have := proper.highest
    omega
  have one : (1 : Rat) ≤ d.significand := Nat.one_le_cast.mpr (Nat.one_le_iff_ne_zero.mpr nonzero)
  refine Binary.ofRat_of_large proper ?_
  rw [size_eq]
  calc (2 : Rat) ^ (f.highest + f.precision) ≤ 2 ^ (3 * d.exponent) := zpow_two_le.mpr large.le
    _ ≤ 10 ^ d.exponent := zpow_eight_le_ten positive
    _ = 1 * 10 ^ d.exponent := (one_mul _).symm
    _ ≤ d.significand * 10 ^ d.exponent :=
      mul_le_mul_of_nonneg_right one (zpow_ten_pos _).le

/-- Neither is one far below the finest last place. -/
theorem ofRat_size_of_small (proper : f.IsProper) {d : Decimal} (nonzero : d.significand ≠ 0)
    (negative : d.exponent < 0)
    (small : (Nat.log2 d.significand : Int) + 1 + 3 * d.exponent < f.lowest) :
    (Binary.ofRat d.size : Binary f) = .finite 0 := by
  have below : |d.size| < 2 ^ (f.lowest - 1) := by
    rw [abs_of_nonneg d.size_nonneg, size_eq]
    calc (d.significand : Rat) * 10 ^ d.exponent
        ≤ d.significand * 2 ^ (3 * d.exponent) :=
          mul_le_mul_of_nonneg_left (zpow_ten_le_eight negative.le) (Nat.cast_nonneg _)
      _ < 2 ^ ((Nat.log2 d.significand : Int) + 1) * 2 ^ (3 * d.exponent) :=
          mul_lt_mul_of_pos_right (log2_spec nonzero).2 (zpow_two_pos _)
      _ = 2 ^ ((Nat.log2 d.significand : Int) + 1 + 3 * d.exponent) := (zpow_two_add _ _).symm
      _ ≤ 2 ^ (f.lowest - 1) := zpow_two_le.mpr (by omega)
  have nothing := nearest_of_small below
  have bounded : |f.nearest d.size| ≤ f.largest := by
    rw [nothing, abs_zero]
    exact (zpow_two_pos _).le.trans (le_largest proper (le_refl f.highest))
  rw [Binary.ofRat_of_abs_le bounded, nothing]

/-- The reader rounds the exact value of a numeral, once. -/
theorem round_eq_ofRat (proper : f.IsProper) (d : Decimal) :
    d.round f = Binary.ofRat d.value := by
  rw [ofRat_value proper]
  unfold round
  split
  · rename_i zero
    have origin : d.size = 0 := by rw [size, zero, Nat.cast_zero, zero_mul]
    have point : f.IsPoint 0 :=
      ⟨0, f.lowest, by simp, by simp, le_refl _, proper.lowest.trans proper.highest⟩
    rw [origin, Binary.ofRat_of_isPoint point]
    cases d.negative <;> rfl
  · rename_i nonzero
    split
    · rename_i large
      rw [ofRat_size_of_large proper nonzero large]
      cases d.negative <;> rfl
    · split
      · rename_i small
        rw [ofRat_size_of_small proper nonzero small.1 small.2]
        cases d.negative <;> rfl
      · exact ofRat_value proper d

/-! ## Reading digits -/

theorem spanDigits_append {a rest : List Char} (h : AllDigits a)
    (stop : ∀ c ∈ rest.head?, digit? c = none) : spanDigits (a ++ rest) = (a, rest) := by
  rw [spanDigits, List.span_eq_takeWhile_dropWhile, List.takeWhile_append_of_pos h,
    List.dropWhile_append_of_pos h]
  cases rest with
  | nil => simp
  | cons c cs =>
    have other : digit? c = none := stop c rfl
    simp [other]

theorem spanDigits_of_allDigits {a : List Char} (h : AllDigits a) : spanDigits a = (a, []) := by
  have stop : ∀ c ∈ ([] : List Char).head?, digit? c = none := by simp
  have whole := spanDigits_append h stop
  rwa [List.append_nil] at whole

theorem unsigned?_of_allDigits {a : List Char} (h : AllDigits a) :
    unsigned? a = (natural? a).map fun n => (n, 0) := by
  simp only [unsigned?, spanDigits_of_allDigits h, List.append_nil, exponent?]
  cases natural? a <;> rfl

theorem unsigned?_of_point {a b : List Char} (ha : AllDigits a) (hb : AllDigits b) :
    unsigned? (a ++ '.' :: b) = (natural? (a ++ b)).map fun n => (n, -(b.length : Int)) := by
  have whole : spanDigits (a ++ '.' :: b) = (a, '.' :: b) :=
    spanDigits_append ha (by simp; rfl)
  simp only [unsigned?, whole, spanDigits_of_allDigits hb, exponent?]
  cases natural? (a ++ b) with
  | none => rfl
  | some n => simp

/-! ## Writing digits -/

/-- A numeral without a fraction. -/
theorem natural?_ofNat (n k : Nat) : natural? (positional n (.ofNat k)) = some (n * 10 ^ k) := by
  have nonempty : decimal n ++ List.replicate k '0' ≠ [] :=
    List.append_ne_nil_of_left_ne_nil (decimal_ne_nil n) _
  rw [positional, natural?_of_ne_nil nonempty, digitsFrom_append, digitsFrom_decimal,
    Option.bind_some, digitsFrom_zeros]

/-- A numeral with a fraction has a digit before the point, and all its digits make up the number
that was written. -/
theorem exists_positional_negSucc (n k : Nat) :
    ∃ a b, positional n (.negSucc k) = a ++ '.' :: b ∧ a ≠ [] ∧ b.length = k + 1 ∧
      natural? (a ++ b) = some n := by
  let padded := List.replicate (k + 1 + 1 - (decimal n).length) '0' ++ decimal n
  have long : k + 2 ≤ padded.length := by
    rw [List.length_append, List.length_replicate]
    omega
  have nonempty : padded ≠ [] := List.append_ne_nil_of_right_ne_nil _ (decimal_ne_nil n)
  refine ⟨padded.take (padded.length - (k + 1)), padded.drop (padded.length - (k + 1)),
    rfl, ?_, ?_, ?_⟩
  · intro none
    have size := congrArg List.length none
    rw [List.length_take, List.length_nil] at size
    omega
  · rw [List.length_drop]
    omega
  · rw [List.take_append_drop, natural?_of_ne_nil nonempty, digitsFrom_leadingZeros,
      digitsFrom_decimal]

/-- A numeral starts with a digit. -/
theorem exists_positional_eq_cons (n : Nat) (e : Int) :
    ∃ c cs, positional n e = c :: cs ∧ (digit? c).isSome = true := by
  cases e with
  | ofNat k =>
    obtain ⟨nonempty, digits⟩ := natural?_spec (natural?_ofNat n k)
    obtain ⟨c, cs, eq⟩ := List.exists_cons_of_ne_nil nonempty
    rw [eq] at digits
    exact ⟨c, cs, eq, (List.forall_mem_cons.mp digits).1⟩
  | negSucc k =>
    obtain ⟨a, b, eq, nonempty, -, whole⟩ := exists_positional_negSucc n k
    obtain ⟨-, digits⟩ := natural?_spec whole
    obtain ⟨c, cs, rfl⟩ := List.exists_cons_of_ne_nil nonempty
    exact ⟨c, cs ++ '.' :: b, eq, (List.forall_mem_cons.mp digits).1⟩

/-- A numeral is read as digits and a power of ten, with the value that was written. -/
theorem exists_unsigned?_positional (n : Nat) (e : Int) :
    ∃ s e', unsigned? (positional n e) = some (s, e') ∧ (s : Rat) * 10 ^ e' = n * 10 ^ e := by
  cases e with
  | ofNat k =>
    have read := natural?_ofNat n k
    refine ⟨n * 10 ^ k, 0, ?_, ?_⟩
    · rw [unsigned?_of_allDigits (natural?_spec read).2, read]
      rfl
    · rw [Int.ofNat_eq_natCast, zpow_natCast]
      simp
  | negSucc k =>
    obtain ⟨a, b, eq, -, length, read⟩ := exists_positional_negSucc n k
    obtain ⟨ha, hb⟩ := allDigits_append.mp (natural?_spec read).2
    refine ⟨n, .negSucc k, ?_, rfl⟩
    rw [eq, unsigned?_of_point ha hb, read, length]
    rfl

/-! ## The shortest numeral -/

/-- What is taken from a grid reads back. -/
theorem ofRat_onGrid? {q unit : Rat} {n : Nat} (h : 0 ≤ q / unit)
    (found : onGrid? f q unit = some n) :
    (Binary.ofRat ((n : Rat) * unit) : Binary f) = .finite q := by
  have floor : 0 ≤ (q / unit).floor := Rat.le_floor_iff.mpr (by exact_mod_cast h)
  unfold onGrid? at found
  dsimp only at found
  have back : ∀ m : Int, 0 ≤ m → some m.toNat = some n →
      ((Binary.ofRat ((m : Rat) * unit) : Binary f) == .finite q) = true →
      (Binary.ofRat ((n : Rat) * unit) : Binary f) = .finite q := by
    intro m nonneg same reads
    have cast : ((n : Nat) : Rat) = m := by
      rw [← Option.some.inj same, ← Int.cast_natCast, Int.toNat_of_nonneg nonneg]
    rw [cast]
    exact beq_iff_eq.mp reads
  split at found
  · rename_i above
    exact back _ (by omega) found (Bool.and_eq_true_iff.mp above).1
  · split at found
    · rename_i below
      exact back _ floor found below
    · cases found

/-- Whatever grid is taken, the numeral reads back, if the last grid holds the point itself. -/
theorem ofRat_shortestFrom {q : Rat} (point : f.IsPoint q) (nonneg : 0 ≤ q) {steps : Nat}
    {exponent k : Int} (last : q = k * 10 ^ (exponent - steps)) :
    (Binary.ofRat ((shortestFrom f q steps exponent).1 *
      10 ^ (shortestFrom f q steps exponent).2) : Binary f) = .finite q := by
  induction steps generalizing exponent with
  | zero =>
    have power := zpow_ten_pos exponent
    rw [Nat.cast_zero, sub_zero] at last
    have multiple : q / 10 ^ exponent = k := by
      rw [last, mul_div_assoc, div_self power.ne', mul_one]
    have positive : 0 ≤ k := by
      have quotient : 0 ≤ q / 10 ^ exponent := div_nonneg nonneg power.le
      rw [multiple] at quotient
      exact_mod_cast quotient
    have same : (k.toNat : Rat) = k := by
      rw [← Int.cast_natCast, Int.toNat_of_nonneg positive]
    simp only [shortestFrom, pow10_eq_zpow, multiple, Rat.floor_intCast, same]
    rw [← last, Binary.ofRat_of_isPoint point]
  | succ steps ih =>
    have power := zpow_ten_pos exponent
    unfold shortestFrom
    rw [pow10_eq_zpow]
    split
    · rename_i n found
      exact ofRat_onGrid? (div_nonneg nonneg power.le) found
    · refine ih ?_
      rw [last]
      congr 2
      push_cast
      ring

/-- The shortest numeral of a positive point is rounded to the point. -/
theorem ofRat_shortest (proper : f.IsProper) {q : Rat} (point : f.IsPoint q) (nonneg : 0 ≤ q) :
    (Binary.ofRat ((shortest f q).1 * 10 ^ (shortest f q).2) : Binary f) = .finite q := by
  have grid := point
  obtain ⟨m, e, value, -, low, -⟩ := grid
  -- Two to the lowest last place is a multiple of the same power of ten.
  obtain ⟨fives, lowest⟩ : ∃ n : Nat, f.lowest = -n := ⟨f.lowest.natAbs, by
    have := proper.lowest
    omega⟩
  obtain ⟨k, multiple⟩ := exists_multiple low m
  have last : q = (k * 5 ^ fives : Int) * 10 ^ f.lowest := by
    have ten : (10 : Rat) ^ f.lowest = 2 ^ f.lowest * 5 ^ f.lowest := by
      rw [← mul_zpow]
      norm_num
    rw [value, multiple, ten, lowest, zpow_neg (5 : Rat), zpow_natCast]
    push_cast
    field_simp
  have reached : max 0 (floorLog2 q) / 3 + 1 - ((max 0 (floorLog2 q) / 3 + 1 - f.lowest).toNat : Int)
      = f.lowest := by
    have := proper.lowest
    omega
  rw [← reached] at last
  exact ofRat_shortestFrom point nonneg last

end Decimal

/-! ## Reading back -/

namespace Binary

/-- No word starts with a digit. -/
theorem sameLetters_of_digit {w c : Char} (word : digit? w.toLower = none)
    (digit : (digit? c).isSome = true) (ws cs : List Char) :
    Text.sameLetters (w :: ws) (c :: cs) = false := by
  have lower : c.toLower = c := forall_digit (P := fun c => c.toLower = c) (by decide) digit
  have differ : w.toLower ≠ c.toLower := by
    intro same
    rw [same, lower] at word
    rw [word] at digit
    cases digit
  simp [Text.sameLetters, differ]

theorem read?_of_digit {cs body : List Char} {negative : Bool} {c : Char}
    (split : splitSign cs = (negative, c :: body)) (digit : (digit? c).isSome = true) :
    (read? cs : Option (Binary f)) =
      (Decimal.unsigned? (c :: body)).map fun d => Decimal.round f ⟨negative, d.1, d.2⟩ := by
  have inf : Text.sameLetters "inf".toList (c :: body) = false :=
    sameLetters_of_digit rfl digit _ _
  have infinity : Text.sameLetters "infinity".toList (c :: body) = false :=
    sameLetters_of_digit rfl digit _ _
  have nan : Text.sameLetters "nan".toList (c :: body) = false :=
    sameLetters_of_digit rfl digit _ _
  simp only [read?, split, inf, infinity, nan, Bool.or_self, Bool.false_eq_true, if_false]
  cases Decimal.unsigned? (c :: body) <;> rfl

theorem splitSign_of_digit {c : Char} (digit : (digit? c).isSome = true) (cs : List Char) :
    splitSign (c :: cs) = (false, c :: cs) := by
  have unsigned : c ≠ '-' ∧ c ≠ '+' :=
    forall_digit (P := fun c => c ≠ '-' ∧ c ≠ '+') (by decide) digit
  rw [splitSign, if_neg unsigned.1, if_neg unsigned.2]

/-- An integer is a sign and digits. -/
theorem exists_of_signed? {cs : List Char} {n : Int} (h : signed? cs = some n) :
    ∃ negative body m, splitSign cs = (negative, body) ∧ natural? body = some m ∧
      n = if negative then -(m : Int) else m := by
  have value : ∀ (body : List Char) (sign : Int → Int),
      ((natural? body).bind fun m => some (m : Int)).map sign = some n →
      ∃ m : Nat, natural? body = some m ∧ sign m = n := by
    intro body sign read
    cases found : natural? body with
    | none =>
      rw [found] at read
      cases read
    | some m =>
      rw [found] at read
      exact ⟨m, rfl, Option.some.inj read⟩
  cases cs with
  | nil => cases h
  | cons c cs =>
    simp only [signed?] at h
    split at h
    · rename_i minus
      obtain ⟨m, read, rfl⟩ := value cs (fun m => -m) h
      exact ⟨true, cs, m, by rw [splitSign, if_pos minus], read, rfl⟩
    · rename_i noMinus
      split at h
      · rename_i plus
        obtain ⟨m, read, rfl⟩ := value cs (fun m => m) h
        exact ⟨false, cs, m, by rw [splitSign, if_neg noMinus, if_pos plus], read, rfl⟩
      · rename_i noPlus
        obtain ⟨m, read, rfl⟩ := value (c :: cs) (fun m => m) h
        exact ⟨false, c :: cs, m, by rw [splitSign, if_neg noMinus, if_neg noPlus], read, rfl⟩

/-- The text of an integer is read as what the integer is rounded to. -/
theorem read?_of_signed? (proper : f.IsProper) {cs : List Char} {n : Int}
    (h : signed? cs = some n) : (read? cs : Option (Binary f)) = some (ofInt n) := by
  obtain ⟨negative, body, m, split, value, rfl⟩ := exists_of_signed? h
  obtain ⟨nonempty, digits⟩ := natural?_spec value
  obtain ⟨c, rest, rfl⟩ := List.exists_cons_of_ne_nil nonempty
  have same : (⟨negative, m, 0⟩ : Decimal).value =
      ((if negative then -(m : Int) else m : Int) : Rat) := by
    cases negative <;> simp [Decimal.value, Decimal.size_eq]
  rw [read?_of_digit split (List.forall_mem_cons.mp digits).1,
    Decimal.unsigned?_of_allDigits digits, value, Option.map_some, Option.map_some,
    Decimal.round_eq_ofRat proper, same, ofInt]

theorem read?_positional (proper : f.IsProper) {q : Rat} (point : f.IsPoint q) (nonneg : 0 ≤ q)
    (negative : Bool) {cs : List Char}
    (split : splitSign cs =
      (negative, Decimal.positional (Decimal.shortest f q).1 (Decimal.shortest f q).2)) :
    (read? cs : Option (Binary f)) = some (if negative then .finite (-q) else .finite q) := by
  have rounded := Decimal.ofRat_shortest proper point nonneg
  generalize (Decimal.shortest f q).1 = n at *
  generalize (Decimal.shortest f q).2 = e at *
  obtain ⟨c, rest, eq, digit⟩ := Decimal.exists_positional_eq_cons n e
  obtain ⟨s, e', read, value⟩ := Decimal.exists_unsigned?_positional n e
  rw [eq] at split read
  have size : (⟨negative, s, e'⟩ : Decimal).size = n * 10 ^ e := by
    rw [Decimal.size_eq]
    exact value
  rw [read?_of_digit split digit, read, Option.map_some, Decimal.round_eq_ofRat proper,
    Decimal.ofRat_value proper, size, rounded]
  rfl

/-- The text of a point is read back as the point. -/
theorem read?_toText (proper : f.IsProper) {x : Binary f} (point : x.IsPoint) :
    read? x.toText = some x := by
  cases x with
  | nan => rfl
  | infinite negative => cases negative <;> rfl
  | finite q =>
    by_cases zero : q = 0
    · subst zero
      rfl
    · have text : (finite q : Binary f).toText =
          if q < 0 then '-' :: Decimal.positional (Decimal.shortest f |q|).1 (Decimal.shortest f |q|).2
          else Decimal.positional (Decimal.shortest f |q|).1 (Decimal.shortest f |q|).2 := by
        simp only [toText, if_neg zero, magnitude_eq_abs]
      rw [text]
      split
      · rename_i below
        rw [read?_positional proper point.abs (abs_nonneg q) true rfl, if_pos rfl, abs_of_neg below,
          neg_neg]
      · rename_i above
        obtain ⟨c, rest, eq, digit⟩ := Decimal.exists_positional_eq_cons
          (Decimal.shortest f |q|).1 (Decimal.shortest f |q|).2
        have unsigned := splitSign_of_digit digit rest
        rw [← eq] at unsigned
        rw [read?_positional proper point.abs (abs_nonneg q) false unsigned, if_neg (by decide),
          abs_of_nonneg (not_lt.mp above)]

/-- Whatever is read is in the format. -/
theorem isPoint_of_read? (proper : f.IsProper) {cs : List Char} {x : Binary f}
    (h : read? cs = some x) : x.IsPoint := by
  unfold read? at h
  dsimp only at h
  split at h
  · cases h
    trivial
  · split at h
    · cases h
      trivial
    · split at h
      · cases h
      · cases h
        rw [Decimal.round_eq_ofRat proper]
        exact isPoint_ofRat proper _

end Binary
end CardBattle
