import CardBattle.Binary.Shortest
import Mathlib.Tactic.Ring

/-!
# CardBattle.Proofs.Numerals

The texts of numbers: which characters they have, and that an integer is read back from its text.

* `Numeral.AllDigits`: the texts that have a value as a natural number.
* `Numeral.Unsigned`: the unsigned numerals and what they are worth.
* `Numeral.signed?_signedDecimal`: an integer is read back.
* `Numeral.marks`: the characters of all texts of numbers.
-/

namespace CardBattle
namespace Numeral

/-! ## Digits -/

/-- A text of digits only. -/
def AllDigits (cs : List Char) : Prop := ∀ c ∈ cs, (digit? c).isSome = true

theorem digit?_digitChar {d : Nat} (h : d < 10) : digit? (digitChar d) = some d := by
  have all : ∀ d : Fin 10, digit? (digitChar d) = some d.val := by decide
  exact all ⟨d, h⟩

theorem exists_digitChar {c : Char} (h : (digit? c).isSome = true) :
    ∃ d < 10, c = digitChar d := by
  unfold digit? at h
  split at h
  · rename_i range
    rw [Bool.and_eq_true, decide_eq_true_eq, decide_eq_true_eq] at range
    refine ⟨c.toNat - 48, by omega, ?_⟩
    rw [digitChar, Nat.add_sub_cancel' range.1, Char.ofNat_toNat]
  · cases h

/-- What holds of the ten digits. -/
theorem forall_digit {P : Char → Prop} (all : ∀ d : Fin 10, P (digitChar d)) {c : Char}
    (h : (digit? c).isSome = true) : P c := by
  obtain ⟨d, small, rfl⟩ := exists_digitChar h
  exact all ⟨d, small⟩

theorem allDigits_append {a b : List Char} : AllDigits (a ++ b) ↔ AllDigits a ∧ AllDigits b :=
  List.forall_mem_append

theorem allDigits_zeros (k : Nat) : AllDigits (List.replicate k '0') := by
  intro c hc
  rw [List.eq_of_mem_replicate hc]
  rfl

/-- The number that digits are worth, behind digits that are worth `acc`. -/
def worthFrom (acc : Nat) (digits : List Char) : Nat :=
  digits.foldl (fun n c => 10 * n + (c.toNat - '0'.toNat)) acc

theorem digitsFrom_eq_some_iff {cs : List Char} {acc n : Nat} :
    digitsFrom acc cs = some n ↔ AllDigits cs ∧ worthFrom acc cs = n := by
  induction cs generalizing acc with
  | nil => simp [digitsFrom, AllDigits, worthFrom]
  | cons c cs ih =>
    rw [AllDigits, List.forall_mem_cons, and_assoc, worthFrom, List.foldl_cons]
    cases found : digit? c with
    | none => simp [digitsFrom, found]
    | some d =>
      have value : c.toNat - '0'.toNat = d := by
        unfold digit? at found
        split at found
        · exact Option.some.inj found
        · cases found
      simp only [digitsFrom, found, ih, value, Option.isSome_some, true_and]
      rfl

theorem allDigits_of_digitsFrom {cs : List Char} {acc n : Nat} (h : digitsFrom acc cs = some n) :
    AllDigits cs := (digitsFrom_eq_some_iff.mp h).1

theorem natural?_of_ne_nil {cs : List Char} (h : cs ≠ []) : natural? cs = digitsFrom 0 cs := by
  cases cs with
  | nil => exact absurd rfl h
  | cons c cs => rfl

theorem natural?_spec {cs : List Char} {n : Nat} (h : natural? cs = some n) :
    cs ≠ [] ∧ AllDigits cs := by
  cases cs with
  | nil => cases h
  | cons c cs => exact ⟨List.cons_ne_nil c cs, allDigits_of_digitsFrom h⟩

/-! ## Natural numbers -/

/-- An unsigned numeral: at least one digit, and a plus sign in front of them or none. -/
def Unsigned (cs : List Char) (n : Nat) : Prop :=
  ∃ digits, (cs = digits ∨ cs = '+' :: digits) ∧ digits ≠ [] ∧ AllDigits digits ∧
    worthFrom 0 digits = n

theorem natural?_eq_some_iff {cs : List Char} {n : Nat} :
    natural? cs = some n ↔ cs ≠ [] ∧ AllDigits cs ∧ worthFrom 0 cs = n := by
  cases cs with
  | nil => simp [natural?]
  | cons c cs =>
    rw [natural?, digitsFrom_eq_some_iff]
    simp

theorem unsigned?_eq_some_iff {cs : List Char} {n : Nat} :
    unsigned? cs = some n ↔ Unsigned cs n := by
  constructor
  · intro h
    cases cs with
    | nil => cases h
    | cons c cs =>
      rw [unsigned?] at h
      split at h
      · rename_i plus
        subst plus
        exact ⟨cs, .inr rfl, natural?_eq_some_iff.mp h⟩
      · exact ⟨c :: cs, .inl rfl, natural?_eq_some_iff.mp h⟩
  · rintro ⟨digits, rfl | rfl, value⟩
    · obtain ⟨c, rest, rfl⟩ := List.exists_cons_of_ne_nil value.1
      have noPlus : c ≠ '+' :=
        forall_digit (P := fun c => c ≠ '+') (by decide) (value.2.1 c List.mem_cons_self)
      rw [unsigned?, if_neg noPlus]
      exact natural?_eq_some_iff.mpr value
    · rw [unsigned?, if_pos rfl]
      exact natural?_eq_some_iff.mpr value

theorem decimal_ne_nil (n : Nat) : decimal n ≠ [] := by
  rw [decimal]
  split <;> simp

theorem allDigits_decimal (n : Nat) : AllDigits (decimal n) := by
  have digit : ∀ d < 10, AllDigits [digitChar d] := by
    intro d small
    rw [AllDigits, List.forall_mem_singleton, digit?_digitChar small]
    rfl
  induction n using decimal.induct with
  | case1 n small =>
    rw [decimal, if_pos small]
    exact digit n small
  | case2 n large ih =>
    rw [decimal, if_neg large]
    exact allDigits_append.mpr ⟨ih, digit _ (Nat.mod_lt n (by decide))⟩

theorem digitsFrom_decimal (n : Nat) : digitsFrom 0 (decimal n) = some n := by
  induction n using decimal.induct with
  | case1 n small =>
    rw [decimal, if_pos small]
    simp [digitsFrom, digit?_digitChar small]
  | case2 n large ih =>
    rw [decimal, if_neg large, digitsFrom_append, ih]
    simp only [Option.bind_some, digitsFrom, digit?_digitChar (Nat.mod_lt n (by decide))]
    rw [Nat.div_add_mod n 10]

theorem natural?_decimal (n : Nat) : natural? (decimal n) = some n := by
  rw [natural?_of_ne_nil (decimal_ne_nil n), digitsFrom_decimal]

theorem unsigned_decimal (n : Nat) : Unsigned (decimal n) n :=
  ⟨decimal n, .inl rfl, natural?_eq_some_iff.mp (natural?_decimal n)⟩

/-- Zeros in front do not count. -/
theorem digitsFrom_leadingZeros (k : Nat) (cs : List Char) :
    digitsFrom 0 (List.replicate k '0' ++ cs) = digitsFrom 0 cs := by
  induction k with
  | zero => rfl
  | succ k ih =>
    rw [List.replicate_succ, List.cons_append]
    exact ih

/-- Zeros at the end are powers of ten. -/
theorem digitsFrom_zeros (n k : Nat) :
    digitsFrom n (List.replicate k '0') = some (n * 10 ^ k) := by
  induction k generalizing n with
  | zero => simp [digitsFrom]
  | succ k ih =>
    have zero : digit? '0' = some 0 := rfl
    rw [List.replicate_succ]
    simp only [digitsFrom, zero]
    rw [ih]
    congr 1
    ring

/-! ## Integers -/

/-- Digits have no sign. -/
theorem signed?_of_allDigits {cs : List Char} (h : AllDigits cs) :
    signed? cs = (natural? cs).map Int.ofNat := by
  cases cs with
  | nil => rfl
  | cons c cs =>
    have unsigned : c ≠ '-' ∧ c ≠ '+' :=
      forall_digit (P := fun c => c ≠ '-' ∧ c ≠ '+') (by decide) (List.forall_mem_cons.mp h).1
    simp only [signed?, if_neg unsigned.1, if_neg unsigned.2]
    cases natural? (c :: cs) <;> rfl

theorem signed?_signedDecimal (n : Int) : signed? (signedDecimal n) = some n := by
  cases n with
  | ofNat k =>
    rw [signedDecimal, signed?_of_allDigits (allDigits_decimal k), natural?_decimal]
    rfl
  | negSucc k =>
    rw [signedDecimal, signed?, if_pos rfl, natural?_decimal]
    rfl

theorem int32?_eq_some {cs : List Char} {n : Int} :
    int32? cs = some n ↔ signed? cs = some n ∧ -2147483648 ≤ n ∧ n ≤ 2147483647 := by
  simp [int32?, Option.filter_eq_some_iff]

theorem int64?_eq_some {cs : List Char} {n : Int} :
    int64? cs = some n ↔
      signed? cs = some n ∧ -9223372036854775808 ≤ n ∧ n ≤ 9223372036854775807 := by
  simp [int64?, Option.filter_eq_some_iff]

theorem nat32?_eq_some {cs : List Char} {n : Nat} :
    nat32? cs = some n ↔ Unsigned cs n ∧ n ≤ 4294967295 := by
  simp [nat32?, Option.filter_eq_some_iff, unsigned?_eq_some_iff]

theorem nat64?_eq_some {cs : List Char} {n : Nat} :
    nat64? cs = some n ↔ Unsigned cs n ∧ n ≤ 18446744073709551615 := by
  simp [nat64?, Option.filter_eq_some_iff, unsigned?_eq_some_iff]

/-! ## Characters -/

/-- The characters of the texts of numbers. -/
def marks : List Char := "0123456789-.infNa".toList

theorem AllDigits.subset_marks {cs : List Char} (h : AllDigits cs) : cs ⊆ marks := fun _ hc =>
  forall_digit (P := fun c => c ∈ marks) (by decide) (h _ hc)

theorem signedDecimal_subset_marks (n : Int) : signedDecimal n ⊆ marks := by
  cases n with
  | ofNat n => exact (allDigits_decimal n).subset_marks
  | negSucc n =>
    exact List.cons_subset.mpr ⟨by decide, (allDigits_decimal (n + 1)).subset_marks⟩

end Numeral

open Numeral

theorem Decimal.positional_subset_marks (n : Nat) (e : Int) : positional n e ⊆ marks := by
  have digits := (allDigits_decimal n).subset_marks
  have zeros : ∀ k, List.replicate k '0' ⊆ marks := fun k => (allDigits_zeros k).subset_marks
  cases e with
  | ofNat k => exact List.append_subset.mpr ⟨digits, zeros k⟩
  | negSucc k =>
    have padded : List.replicate (k + 1 + 1 - (decimal n).length) '0' ++ decimal n ⊆ marks :=
      List.append_subset.mpr ⟨zeros _, digits⟩
    simp only [positional]
    refine List.append_subset.mpr ⟨?_, List.cons_subset.mpr ⟨by decide, ?_⟩⟩
    · exact List.Subset.trans (List.take_subset _ _) padded
    · exact List.Subset.trans (List.drop_subset _ _) padded

theorem Binary.toText_subset_marks {f : Format} (x : Binary f) : x.toText ⊆ marks := by
  cases x with
  | nan =>
    have word : "NaN".toList ⊆ marks := by decide
    exact word
  | infinite negative =>
    have word : ∀ s : Bool, (if s then "-inf".toList else "inf".toList) ⊆ marks := by decide
    exact word negative
  | finite q =>
    simp only [toText]
    split
    · decide
    · split
      · exact List.cons_subset.mpr ⟨by decide, Decimal.positional_subset_marks _ _⟩
      · exact Decimal.positional_subset_marks _ _

end CardBattle
