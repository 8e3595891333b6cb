import CardBattle.Text

/-!
# CardBattle.Vocabulary

Closed sets of words. A type with a `Vocabulary` is a finite list of values, each with the one
word that names it; reading compares letters without their case and does not trim.
-/

namespace CardBattle

class Vocabulary (α : Type) where
  values : List α
  word : α → String

namespace Vocabulary

variable {α : Type} [Vocabulary α]

/-- The value named by a text, in any case of its letters. -/
def read? (text : List Char) : Option α :=
  (values : List α).find? fun a => Text.sameLetters (word a).toList text

/-- The value named by a text exactly as it is written. -/
def readExact? (text : List Char) : Option α :=
  (values : List α).find? fun a => (word a).toList == text

theorem sameLetters_of_read? {text : List Char} {a : α} (h : read? text = some a) :
    Text.sameLetters (word a).toList text = true := by
  have := List.find?_some h
  simpa using this

theorem mem_values_of_read? {text : List Char} {a : α} (h : read? text = some a) :
    a ∈ (values : List α) := List.mem_of_find?_eq_some h

end Vocabulary
end CardBattle
