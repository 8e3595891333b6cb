import CardBattle.Proofs.Numerals
import CardBattle.Proofs.Rows
import CardBattle.Requirement
import Mathlib.Data.List.TakeDrop

/-!
# CardBattle.Proofs.PlainText

Names and numbers are plain: they have neither blanks nor operators nor separators, so that each of
them can be a field of a row and the subject or the number of a requirement.

* `Text.Plain`: letters, digits, signs and points only.
* `Numeral.plain_of_signed?`, `Numeral.Unsigned.plain`, `Binary.plain_of_read?`: every text
  that is read as a number is plain.
* `Text.IsNumber`, `Text.IsInteger`: numbers with blanks around them.
-/

namespace CardBattle

/-! ## Plain texts -/

namespace Text

theorem after?_eq_some_iff {start cs rest : List Char} :
    after? start cs = some rest ↔ cs = start ++ rest := by
  induction start generalizing cs with
  | nil => simp [after?]
  | cons s start ih =>
    cases cs with
    | nil => simp [after?]
    | cons c cs =>
      by_cases same : s = c
      · simp [after?, same, ih]
      · have other : ¬ c = s := fun h => same h.symm
        simp [after?, same, other]

/-- Letters, digits, signs and points. -/
def isPlain (c : Char) : Bool :=
  let n := c.toNat
  (48 ≤ n && n ≤ 57) || (65 ≤ n && n ≤ 90) || (97 ≤ n && n ≤ 122) || n == 0x2B || n == 0x2D ||
    n == 0x2E

def Plain (cs : List Char) : Prop := ∀ c ∈ cs, isPlain c = true

instance (cs : List Char) : Decidable (Plain cs) := List.decidableBAll _ cs

/-- What holds of the plain characters among the first 128 holds of all plain characters. -/
theorem forall_plain {p : Char → Bool}
    (all : ∀ n : Fin 128, isPlain (Char.ofNat n) = true → p (Char.ofNat n) = true) {c : Char}
    (h : isPlain c = true) : p c = true := by
  have small : c.toNat < 128 := by
    simp only [isPlain, Bool.or_eq_true, Bool.and_eq_true, decide_eq_true_eq, beq_iff_eq] at h
    omega
  have same : Char.ofNat c.toNat = c := Char.ofNat_toNat c
  rw [← same] at h ⊢
  exact all ⟨c.toNat, small⟩ h

theorem Plain.visible {cs : List Char} (h : Plain cs) : ∀ c ∈ cs, isBlank c = false := by
  intro c hc
  have visible := forall_plain (p := fun c => !isBlank c) (by decide +kernel) (h c hc)
  rwa [Bool.not_eq_true'] at visible

theorem Plain.silent {cs : List Char} (h : Plain cs) :
    ∀ c ∈ cs, Comparison.isOperator c = false := by
  intro c hc
  have silent :=
    forall_plain (p := fun c => !Comparison.isOperator c) (by decide +kernel) (h c hc)
  rwa [Bool.not_eq_true'] at silent

theorem Plain.not_mem {cs : List Char} (h : Plain cs) {sep : Char} (other : isPlain sep = false) :
    sep ∉ cs := by
  intro hc
  rw [h sep hc] at other
  cases other

theorem Plain.tight {cs : List Char} (h : Plain cs) : Tight cs := tight_of_visible h.visible

theorem Plain.cell {cs : List Char} (h : Plain cs) {sep : Char} (other : isPlain sep = false) :
    Cell sep cs := ⟨h.not_mem other, h.tight⟩

theorem Blank.silent {cs : List Char} (h : Blank cs) :
    ∀ c ∈ cs, Comparison.isOperator c = false := by
  intro c hc
  by_contra operator
  rw [Bool.not_eq_false] at operator
  have blank := h c hc
  simp only [Comparison.isOperator, Bool.or_eq_true, decide_eq_true_eq] at operator
  rcases operator with ((rfl | rfl) | rfl) | rfl <;> exact absurd blank (by decide)

/-- A plain text between blanks is found by trimming. -/
theorem Plain.trim_between {front cs back : List Char} (h : Plain cs) (blank : Blank front)
    (blank' : Blank back) : trim (front ++ (cs ++ back)) = cs :=
  Text.trim_between blank blank' h.tight.1 h.tight.2

theorem plain_append {a b : List Char} : Plain (a ++ b) ↔ Plain a ∧ Plain b :=
  List.forall_mem_append

theorem plain_cons {c : Char} {cs : List Char} : Plain (c :: cs) ↔ isPlain c = true ∧ Plain cs :=
  List.forall_mem_cons

/-- Only the letters from A to Z have another small letter. -/
theorem forall_toLower {P : Char → Char → Prop}
    (capital : ∀ d : Fin 26, P (Char.ofNat (65 + d)) (Char.ofNat (65 + d)).toLower)
    (other : ∀ c, P c c) (c : Char) : P c c.toLower := by
  by_cases upper : 'A'.val ≤ c.val ∧ c.val ≤ 'Z'.val
  · have range : 65 ≤ c.toNat ∧ c.toNat ≤ 90 := by
      rw [UInt32.le_iff_toNat_le, UInt32.le_iff_toNat_le] at upper
      exact upper
    have letter : Char.ofNat (65 + (c.toNat - 65)) = c := by
      rw [Nat.add_sub_cancel' range.1, Char.ofNat_toNat]
    have small : c.toNat - 65 < 26 := by omega
    rw [← letter]
    exact capital ⟨c.toNat - 65, small⟩
  · have same : c.toLower = c := dif_neg upper
    rw [same]
    exact other c

theorem isPlain_of_toLower {c : Char} (h : isPlain c.toLower = true) : isPlain c = true :=
  forall_toLower (P := fun c small => isPlain small = true → isPlain c = true) (by decide)
    (fun _ plain => plain) c h

/-- A text with the letters of a plain one is plain. -/
theorem Plain.of_sameLetters {word text : List Char} (plain : Plain word)
    (same : sameLetters word text = true) : Plain text := by
  have small : ∀ c, isPlain c = true → isPlain c.toLower = true :=
    forall_toLower (P := fun c small => isPlain c = true → isPlain small = true) (by decide)
      fun _ plain => plain
  rw [sameLetters, beq_iff_eq] at same
  intro c hc
  have listed : c.toLower ∈ word.map Char.toLower := by
    rw [same]
    exact List.mem_map_of_mem hc
  obtain ⟨w, hw, letter⟩ := List.mem_map.mp listed
  refine isPlain_of_toLower ?_
  rw [← letter]
  exact small w (plain w hw)

theorem plain_of_allDigits {cs : List Char} (h : Numeral.AllDigits cs) : Plain cs := by
  intro c hc
  exact Numeral.forall_digit (P := fun c => isPlain c = true) (by decide) (h c hc)

end Text

/-! ## Numbers are plain -/

open Text

theorem Numeral.plain_of_natural? {cs : List Char} {n : Nat} (h : natural? cs = some n) :
    Plain cs := plain_of_allDigits (natural?_spec h).2

theorem Numeral.plain_of_signed? {cs : List Char} {n : Int} (h : signed? cs = some n) :
    Plain cs := by
  cases cs with
  | nil => cases h
  | cons c cs =>
    by_cases minus : c = '-'
    · subst minus
      cases read : natural? cs with
      | none => simp [signed?, read] at h
      | some k => exact plain_cons.mpr ⟨by decide, plain_of_natural? read⟩
    · by_cases plus : c = '+'
      · subst plus
        cases read : natural? cs with
        | none => simp [signed?, read] at h
        | some k => exact plain_cons.mpr ⟨by decide, plain_of_natural? read⟩
      · cases read : natural? (c :: cs) with
        | none => simp [signed?, minus, plus, read] at h
        | some k => exact plain_of_natural? read

theorem Numeral.Unsigned.plain {cs : List Char} {n : Nat} (h : Unsigned cs n) : Plain cs := by
  obtain ⟨digits, rfl | rfl, -, allDigits, -⟩ := h
  · exact plain_of_allDigits allDigits
  · exact plain_cons.mpr ⟨by decide, plain_of_allDigits allDigits⟩

theorem Numeral.plain_of_int32? {cs : List Char} {n : Int} (h : int32? cs = some n) : Plain cs :=
  plain_of_signed? (int32?_eq_some.mp h).1

theorem Numeral.plain_of_int64? {cs : List Char} {n : Int} (h : int64? cs = some n) : Plain cs :=
  plain_of_signed? (int64?_eq_some.mp h).1

namespace Decimal

theorem plain_of_exponent? {cs : List Char} {n : Int} (h : exponent? cs = some n) : Plain cs := by
  cases cs with
  | nil => exact List.forall_mem_nil _
  | cons c cs =>
    rw [exponent?] at h
    by_cases mark : (c = 'e' || c = 'E') = true
    · rw [if_pos mark] at h
      rw [Bool.or_eq_true, decide_eq_true_eq, decide_eq_true_eq] at mark
      refine plain_cons.mpr ⟨?_, Numeral.plain_of_signed? h⟩
      rcases mark with rfl | rfl <;> decide
    · rw [if_neg mark] at h
      cases h

theorem spanDigits_eq (cs : List Char) : cs = (spanDigits cs).1 ++ (spanDigits cs).2 := by
  rw [spanDigits, List.span_eq_takeWhile_dropWhile]
  exact List.takeWhile_append_dropWhile.symm

theorem plain_of_unsigned? {cs : List Char} {n : Nat × Int} (h : unsigned? cs = some n) :
    Plain cs ∧ cs ≠ [] := by
  have whole := spanDigits_eq cs
  simp only [unsigned?] at h
  generalize spanDigits cs = first at h whole
  split at h
  · rename_i digits exponent
    revert digits exponent
    split
    · rename_i more point
      intro digits exponent
      have plain := plain_append.mp (Numeral.plain_of_natural? digits)
      have tail := plain_append.mpr ⟨plain.2, plain_of_exponent? exponent⟩
      rw [← spanDigits_eq] at tail
      rw [whole, point]
      exact ⟨plain_append.mpr ⟨plain.1, plain_cons.mpr ⟨by decide, tail⟩⟩, by simp⟩
    · intro digits exponent
      rw [List.append_nil] at digits
      obtain ⟨some, _⟩ := Numeral.natural?_spec digits
      rw [whole]
      exact ⟨plain_append.mpr ⟨Numeral.plain_of_natural? digits, plain_of_exponent? exponent⟩,
        List.append_ne_nil_of_left_ne_nil some _⟩
  · cases h

end Decimal

theorem splitSign_spec (cs : List Char) :
    ∃ sign, Plain sign ∧ cs = sign ++ (splitSign cs).2 := by
  cases cs with
  | nil => exact ⟨[], List.forall_mem_nil _, rfl⟩
  | cons c cs =>
    by_cases minus : c = '-'
    · subst minus
      exact ⟨['-'], by decide, rfl⟩
    · by_cases plus : c = '+'
      · subst plus
        exact ⟨['+'], by decide, rfl⟩
      · refine ⟨[], List.forall_mem_nil _, ?_⟩
        rw [splitSign, if_neg minus, if_neg plus]
        rfl

theorem Text.ne_nil_of_sameLetters {word text : List Char} (letters : word ≠ [])
    (same : sameLetters word text = true) : text ≠ [] := by
  rintro rfl
  rw [sameLetters, beq_iff_eq, List.map_nil, List.map_eq_nil_iff] at same
  exact letters same

/-- The text of a number has neither blanks nor operators, and it is not empty. -/
theorem Binary.plain_of_read? {f : Format} {cs : List Char} {x : Binary f}
    (h : (read? cs : Option (Binary f)) = some x) : Plain cs ∧ cs ≠ [] := by
  obtain ⟨sign, plain, whole⟩ := splitSign_spec cs
  suffices body : Plain (splitSign cs).2 ∧ (splitSign cs).2 ≠ [] by
    rw [whole]
    exact ⟨plain_append.mpr ⟨plain, body.1⟩, List.append_ne_nil_of_right_ne_nil _ body.2⟩
  have word : ∀ {w : List Char}, Plain w → w ≠ [] →
      sameLetters w (splitSign cs).2 = true → Plain (splitSign cs).2 ∧ (splitSign cs).2 ≠ [] :=
    fun plain letters same => ⟨plain.of_sameLetters same, ne_nil_of_sameLetters letters same⟩
  rw [read?] at h
  generalize splitSign cs = split at h word
  obtain ⟨negative, body⟩ := split
  simp only at h word ⊢
  split at h
  · rename_i infinite
    rw [Bool.or_eq_true] at infinite
    rcases infinite with short | long
    · exact word (by decide) (by decide) short
    · exact word (by decide) (by decide) long
  · split at h
    · rename_i nan
      exact word (by decide) (by decide) nan
    · split at h
      · cases h
      · rename_i unsigned
        exact Decimal.plain_of_unsigned? unsigned

/-! ## Numbers between blanks -/

namespace Text

variable {text : List Char}

def IsNumber {f : Format} (text : List Char) (x : Binary f) : Prop :=
  ∃ numeral, Padded text numeral ∧ Binary.read? numeral = some x

def IsInteger (text : List Char) (n : Int) : Prop :=
  ∃ numeral, Padded text numeral ∧ Numeral.int32? numeral = some n

theorem isNumber_iff {f : Format} {x : Binary f} :
    IsNumber text x ↔ Binary.read? (trim text) = some x :=
  (read_trim_iff fun _ read => (Binary.plain_of_read? read).1.tight).symm

theorem isInteger_iff {n : Int} : IsInteger text n ↔ Numeral.int32? (trim text) = some n :=
  (read_trim_iff fun _ read => (Numeral.plain_of_int32? read).tight).symm

theorem IsInteger.unique {n m : Int} (h : IsInteger text n) (h' : IsInteger text m) : n = m := by
  rw [isInteger_iff] at h h'
  exact Option.some.inj (h.symm.trans h')

theorem isInteger_trim_iff {n : Int} : IsInteger (trim text) n ↔ IsInteger text n := by
  rw [isInteger_iff, isInteger_iff, trim_trim]

theorem isNumber_none_iff {f : Format} :
    (∀ x : Binary f, ¬ IsNumber text x) ↔
      (Binary.read? (trim text) : Option (Binary f)) = none := by
  simp only [isNumber_iff, Option.eq_none_iff_forall_not_mem, Option.mem_def]

theorem isInteger_none_iff : (∀ n, ¬ IsInteger text n) ↔ Numeral.int32? (trim text) = none := by
  simp only [isInteger_iff, Option.eq_none_iff_forall_not_mem, Option.mem_def]

theorem number_total {f : Format} (text : List Char) :
    (∃ x : Binary f, IsNumber text x) ∨ ∀ x : Binary f, ¬ IsNumber text x := by
  by_cases number : ∃ x : Binary f, IsNumber text x
  · exact .inl number
  · exact .inr (not_exists.mp number)

theorem integer_total (text : List Char) :
    (∃ n, IsInteger text n) ∨ ∀ n, ¬ IsInteger text n := by
  by_cases integer : ∃ n, IsInteger text n
  · exact .inl integer
  · exact .inr (not_exists.mp integer)

theorem IsInteger.not_mem {n : Int} (h : IsInteger text n) {sep : Char}
    (visible : isBlank sep = false) (other : isPlain sep = false) : sep ∉ text := by
  obtain ⟨numeral, padded, read⟩ := h
  exact padded.not_mem visible ((Numeral.plain_of_int32? read).not_mem other)

end Text
end CardBattle
