import CardBattle.Condition
import CardBattle.Effect
import CardBattle.Proofs.PlainText
import Mathlib.Data.List.Nodup

/-!
# CardBattle.Proofs.Names

Names in any case of their letters. The words of a vocabulary differ in their letters, so a name
is read as the one value whose word it is; and the words are plain, so a name has neither blanks
nor separators.

* `Vocabulary.Legible`: all values are listed, and their words differ and are plain.
* `Vocabulary.read?_eq_some_iff`, `Vocabulary.read?_eq_none_iff`: what is read.
* `Vocabulary.plain_of_names`: the characters of a name.
-/

namespace CardBattle

open Text

namespace Vocabulary

class Legible (α : Type) [Vocabulary α] : Prop where
  listed : ∀ a : α, a ∈ (values : List α)
  apart : ((values : List α).map fun a => (word a).toList.map Char.toLower).Nodup
  plain : ∀ a ∈ (values : List α), Plain (word a).toList ∧ (word a).toList ≠ []

instance : Legible Subject where
  listed s := by cases s <;> decide
  apart := by decide
  plain := by decide

instance : Legible Side where
  listed s := by cases s <;> decide
  apart := by decide
  plain := by decide

instance : Legible Meter where
  listed m := by cases m <;> decide
  apart := by decide
  plain := by decide

instance : Legible Element where
  listed e := by cases e <;> decide
  apart := by decide
  plain := by decide

instance : Legible BuffKind where
  listed k := by cases k <;> decide
  apart := by decide +kernel
  plain := by decide +kernel

instance : Legible ConditionKind where
  listed k := by cases k <;> decide
  apart := by decide +kernel
  plain := by decide +kernel

variable {α : Type} [Vocabulary α] [Legible α] {name : List Char} {a : α}

theorem read?_eq_some_iff : read? name = some a ↔ sameLetters (word a).toList name = true := by
  constructor
  · exact sameLetters_of_read?
  · intro same
    cases found : (read? name : Option α) with
    | none =>
      have missed := List.find?_eq_none.mp found a (Legible.listed a)
      exact absurd same missed
    | some b =>
      have other := sameLetters_of_read? found
      rw [sameLetters, beq_iff_eq] at same other
      have equal := List.inj_on_of_nodup_map Legible.apart (Legible.listed b) (Legible.listed a)
        (other.trans same.symm)
      rw [equal]

theorem read?_eq_none_iff :
    (read? name : Option α) = none ↔ ∀ a : α, sameLetters (word a).toList name = false := by
  constructor
  · intro none a
    by_contra same
    rw [Bool.not_eq_false, ← read?_eq_some_iff, none] at same
    cases same
  · intro other
    cases found : (read? name : Option α) with
    | none => rfl
    | some a =>
      have same := other a
      rw [read?_eq_some_iff.mp found] at same
      cases same

theorem plain_of_names (named : sameLetters (word a).toList name = true) :
    Plain name ∧ name ≠ [] := by
  obtain ⟨plain, some⟩ := Legible.plain a (Legible.listed a)
  exact ⟨plain.of_sameLetters named, ne_nil_of_sameLetters some named⟩

end Vocabulary
end CardBattle
