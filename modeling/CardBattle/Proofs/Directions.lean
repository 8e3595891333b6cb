import CardBattle.Buff.Spec
import CardBattle.Proofs.PlainText

/-!
# CardBattle.Proofs.Directions

The language of directions. A direction of Swift has one of four forms, each with a letter for
every side it names and a distance behind it; a text has at most one of them, because a distance
has no letters.

* `Direction.Spells`: the four forms, in capital letters.
* `Direction.read?_eq_some_iff`: reading finds the form that was written.
* `SwiftReach.directions`: what is read of any text, and from what a direction is read.
-/

namespace CardBattle

open Text Numeral

/-! ## Letters -/

namespace Numeral

/-- An unsigned numeral has digits and perhaps a sign, but no letters. -/
theorem Unsigned.not_mem {cs : List Char} {n : Nat} (h : Unsigned cs n) {c : Char}
    (sign : c ≠ '+') (digit : digit? c = none) : c ∉ cs := by
  obtain ⟨digits, whole, -, allDigits, -⟩ := h
  have absent : c ∉ digits := by
    intro there
    have isDigit := allDigits c there
    rw [digit] at isDigit
    cases isDigit
  obtain rfl | rfl := whole
  · exact absent
  · exact List.not_mem_cons_of_ne_of_not_mem sign absent

theorem Unsigned.ne_nil {cs : List Char} {n : Nat} (h : Unsigned cs n) : cs ≠ [] := by
  obtain ⟨digits, rfl | rfl, some, -⟩ := h
  · exact some
  · exact List.cons_ne_nil _ _

end Numeral

namespace Text

theorem toUpper_toLower (c : Char) : c.toLower.toUpper = c.toUpper :=
  forall_toLower (P := fun c small => small.toUpper = c.toUpper) (by decide) (fun _ => rfl) c

/-- Texts with the same letters have the same capital letters. -/
theorem map_toUpper_of_sameLetters {a b : List Char} (same : sameLetters a b = true) :
    b.map Char.toUpper = a.map Char.toUpper := by
  have capital : Char.toUpper ∘ Char.toLower = Char.toUpper := funext toUpper_toLower
  rw [sameLetters, beq_iff_eq] at same
  rw [← capital, ← List.map_map, ← List.map_map, same]

end Text

/-! ## Forms -/

/-- A direction: one distance for both sides, a distance to one side, or a distance to each. -/
inductive Direction where
  | both (n : Nat)
  | left (n : Nat)
  | right (n : Nat)
  | sides (n m : Nat)
deriving DecidableEq

namespace Direction

def reach : Direction → SwiftReach
  | both n => ⟨n, n⟩
  | left n => ⟨n, 0⟩
  | right n => ⟨0, n⟩
  | sides n m => ⟨n, m⟩

/-- A distance is an unsigned numeral in the range of counts. -/
def Distance (cs : List Char) (n : Nat) : Prop := Unsigned cs n ∧ n ≤ Count.greatest

/-- A direction as it is written in capital letters. -/
def Spells (text : List Char) : Direction → Prop
  | both n => ∃ cs, Distance cs n ∧ text = 'L' :: 'R' :: cs
  | left n => ∃ cs, Distance cs n ∧ text = 'L' :: cs
  | right n => ∃ cs, Distance cs n ∧ text = 'R' :: cs
  | sides n m => ∃ cs ds, Distance cs n ∧ Distance ds m ∧ text = 'L' :: (cs ++ 'R' :: ds)

/-- The form of a direction beside its reach. -/
def read? : List Char → Option Direction
  | 'L' :: 'R' :: cs => (nat32? cs).map both
  | 'L' :: cs =>
    match cut 'R' cs with
    | none => (nat32? cs).map left
    | some (first, second) =>
      match nat32? first, nat32? second with
      | some n, some m => some (sides n m)
      | _, _ => none
  | 'R' :: cs => (nat32? cs).map right
  | _ => none

variable {capitals cs : List Char} {d : Direction} {n : Nat}

theorem distance_iff : Distance cs n ↔ nat32? cs = some n := nat32?_eq_some.symm

theorem Distance.letter (h : Distance cs n) : 'R' ∉ cs := h.1.not_mem (by decide) rfl

theorem spells_of_read? (h : read? capitals = some d) : Spells capitals d := by
  unfold read? at h
  split at h
  · rename_i cs
    obtain ⟨n, read, rfl⟩ := Option.map_eq_some_iff.mp h
    exact ⟨cs, distance_iff.mpr read, rfl⟩
  · rename_i cs _
    split at h
    · obtain ⟨n, read, rfl⟩ := Option.map_eq_some_iff.mp h
      exact ⟨cs, distance_iff.mpr read, rfl⟩
    · rename_i first second found
      split at h
      · rename_i n m readFirst readSecond
        cases h
        exact ⟨first, second, distance_iff.mpr readFirst, distance_iff.mpr readSecond,
          by rw [eq_of_cut found]⟩
      · cases h
  · rename_i cs
    obtain ⟨n, read, rfl⟩ := Option.map_eq_some_iff.mp h
    exact ⟨cs, distance_iff.mpr read, rfl⟩
  · cases h

/-- Behind a single `L` stands a distance, which does not begin with a letter. -/
theorem read?_left (first : ∀ ds, cs ≠ 'R' :: ds) :
    read? ('L' :: cs) =
      match cut 'R' cs with
      | none => (nat32? cs).map left
      | some (first, second) =>
        match nat32? first, nat32? second with
        | some n, some m => some (sides n m)
        | _, _ => none := by
  unfold read?
  split
  · rename_i ds whole
    cases whole
    exact absurd rfl (first ds)
  · rename_i whole
    cases whole
    rfl
  · rename_i whole
    cases whole
  · rename_i other _
    exact absurd rfl (other cs)

theorem read?_of_spells (h : Spells capitals d) : read? capitals = some d := by
  cases d with
  | both n =>
    obtain ⟨cs, distance, rfl⟩ := h
    simp only [read?, distance_iff.mp distance, Option.map_some]
  | left n =>
    obtain ⟨cs, distance, rfl⟩ := h
    have first : ∀ ds, cs ≠ 'R' :: ds := fun ds whole =>
      distance.letter (whole ▸ List.mem_cons_self)
    simp only [read?_left first, cut_eq_none_iff.mpr distance.letter, distance_iff.mp distance,
      Option.map_some]
  | right n =>
    obtain ⟨cs, distance, rfl⟩ := h
    simp only [read?, distance_iff.mp distance, Option.map_some]
  | sides n m =>
    obtain ⟨cs, ds, first, second, rfl⟩ := h
    obtain ⟨c, rest, rfl⟩ := List.exists_cons_of_ne_nil first.1.ne_nil
    have start : ∀ ds', c :: rest ++ 'R' :: ds ≠ 'R' :: ds' := by
      intro ds' whole
      rw [List.cons_append, List.cons.injEq] at whole
      exact first.letter (whole.1 ▸ List.mem_cons_self)
    simp only [read?_left start, cut_eq_some_iff.mpr ⟨first.letter, rfl⟩, distance_iff.mp first,
      distance_iff.mp second]

theorem read?_eq_some_iff : read? capitals = some d ↔ Spells capitals d :=
  ⟨spells_of_read?, read?_of_spells⟩

/-! ## Texts of directions -/

/-- The shortest text of a direction. -/
def text : Direction → List Char
  | both n => 'L' :: 'R' :: decimal n
  | left n => 'L' :: decimal n
  | right n => 'R' :: decimal n
  | sides n m => 'L' :: (decimal n ++ 'R' :: decimal m)

def InRange : Direction → Prop
  | both n | left n | right n => n ≤ Count.greatest
  | sides n m => n ≤ Count.greatest ∧ m ≤ Count.greatest

theorem spells_text (h : d.InRange) : Spells d.text d := by
  cases d with
  | both n | left n | right n => exact ⟨decimal n, ⟨unsigned_decimal n, h⟩, rfl⟩
  | sides n m =>
    exact ⟨decimal n, decimal m, ⟨unsigned_decimal n, h.1⟩, ⟨unsigned_decimal m, h.2⟩, rfl⟩

theorem plain_text (d : Direction) : Plain d.text := by
  have digits : ∀ n, Plain (decimal n) := fun n => plain_of_allDigits (allDigits_decimal n)
  have letters : isPlain 'L' = true ∧ isPlain 'R' = true := by decide
  cases d <;> simp only [text, plain_cons, plain_append, digits, letters, and_self]

theorem map_toUpper_text (d : Direction) : d.text.map Char.toUpper = d.text := by
  have digits : ∀ n, (decimal n).map Char.toUpper = decimal n := by
    intro n
    have fixed : ∀ c ∈ decimal n, c.toUpper = id c := fun c hc =>
      forall_digit (P := fun c => c.toUpper = id c) (by decide) (allDigits_decimal n c hc)
    rw [List.map_congr_left fixed, List.map_id]
  cases d <;> simp [text, digits]

end Direction

namespace SwiftReach

/-- The capital letters between the blanks of a text. -/
def capitals (text : List Char) : List Char := (trim text).map Char.toUpper

variable {text : List Char}

theorem read?_eq_map (text : List Char) :
    read? text = (Direction.read? (capitals text)).map Direction.reach := by
  unfold read?
  rw [← capitals]
  generalize capitals text = cs
  split
  · rename_i cs
    cases read : nat32? cs <;> simp only [Direction.read?, read] <;> rfl
  · rename_i cs first
    rw [Direction.read?_left first, afterLeft?]
    cases cut 'R' cs with
    | none => cases nat32? cs <;> rfl
    | some parts =>
      cases first : nat32? parts.1 <;> cases second : nat32? parts.2 <;>
        simp only [first, second] <;> rfl
  · rename_i cs
    cases read : nat32? cs <;> simp only [Direction.read?, read] <;> rfl
  · rename_i both left right
    unfold Direction.read?
    split
    · exact absurd rfl (both _)
    · exact absurd rfl (left _)
    · exact absurd rfl (right _)
    · rfl

theorem read?_eq_some_iff {r : SwiftReach} :
    read? text = some r ↔ ∃ d, Direction.Spells (capitals text) d ∧ d.reach = r := by
  simp only [read?_eq_map, Option.map_eq_some_iff, Direction.read?_eq_some_iff]

theorem read?_eq_none_iff :
    read? text = none ↔ ∀ d, ¬ Direction.Spells (capitals text) d := by
  rw [read?_eq_map, Option.map_eq_none_iff, Option.eq_none_iff_forall_not_mem]
  simp only [Option.mem_def, Direction.read?_eq_some_iff]

/-- The language of directions: the texts that are read and what they say, and that a text has one
form only. Every direction is read from its text, in any case and between any blanks. -/
structure Language (text : List Char) : Prop where
  reads : ∀ r, read? text = some r ↔ ∃ d, Direction.Spells (capitals text) d ∧ d.reach = r
  unread : read? text = none ↔ ∀ d, ¬ Direction.Spells (capitals text) d
  single : ∀ d e, Direction.Spells (capitals text) d → Direction.Spells (capitals text) e → d = e
  written : ∀ (d : Direction) name, d.InRange → sameLetters d.text name = true →
    Padded text name → read? text = some d.reach

/-- **Directions**: what is read of any text, and from which texts. -/
theorem directions (text : String) : Language text.toList where
  reads r := read?_eq_some_iff
  unread := read?_eq_none_iff
  single d e spelt spelt' := by
    rw [← Direction.read?_eq_some_iff] at spelt spelt'
    exact Option.some.inj (spelt.symm.trans spelt')
  written := by
    intro d name inRange same padded
    have plain : Plain name := d.plain_text.of_sameLetters same
    refine read?_eq_some_iff.mpr ⟨d, ?_, rfl⟩
    rw [capitals, padded.trim_eq plain.tight, map_toUpper_of_sameLetters same, d.map_toUpper_text]
    exact Direction.spells_text inRange

example : read? " l2r1 ".toList = some ⟨2, 1⟩ := by decide

/-- What follows `LR` is one distance. -/
example : read? "LR2R1".toList = none := by decide

end SwiftReach
end CardBattle
