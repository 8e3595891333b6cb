/-!
# CardBattle.Chance.Generator

What the game asks of chance, and what it relies on. A generator answers three questions: a place
in a list, a list in random order, and a place drawn among weights. What becomes of piles and
intents depends on its numbers, but whatever they are, it keeps to the rules below.
-/

namespace CardBattle
namespace Chance

/-- The sum of weights, as large as it is. -/
def total : List Nat → Nat
  | [] => 0
  | w :: ws => w + total ws

@[simp] theorem total_nil : total [] = 0 := rfl

@[simp] theorem total_cons (w : Nat) (ws : List Nat) : total (w :: ws) = w + total ws := rfl

theorem total_append (ws ws' : List Nat) : total (ws ++ ws') = total ws + total ws' := by
  induction ws with
  | nil => simp
  | cons w ws ih => simp only [List.cons_append, total_cons, ih, Nat.add_assoc]

theorem total_eq_zero_iff {ws : List Nat} : total ws = 0 ↔ ∀ w ∈ ws, w = 0 := by
  induction ws with
  | nil => simp
  | cons w ws ih => rw [total_cons, Nat.add_eq_zero_iff, ih, List.forall_mem_cons]

class Generator (σ : Type) where
  /-- A place in a list of given length. -/
  index : Nat → σ → Option Nat × σ
  /-- A list in random order. -/
  shuffle {α : Type} : List α → σ → List α × σ
  /-- A place among weights. -/
  weighted : List Nat → σ → Option Nat × σ
  /-- For the empty list nothing is drawn. -/
  index_zero (s : σ) : index 0 s = (none, s)
  exists_index {n : Nat} (pos : 0 < n) (s : σ) : ∃ i s', index n s = (some i, s')
  index_lt {n i : Nat} {s s' : σ} : index n s = (some i, s') → i < n
  /-- A shuffle moves the items and changes none. -/
  shuffle_perm {α : Type} (items : List α) (s : σ) : (shuffle items s).1.Perm items
  /-- A shuffle does not look at the items. -/
  shuffle_map {α β : Type} (f : α → β) (items : List α) (s : σ) :
    shuffle (items.map f) s = ((shuffle items s).1.map f, (shuffle items s).2)
  /-- What has no weight is not drawn. -/
  weighted_pos {weights : List Nat} {s : σ} {i : Nat} :
    (weighted weights s).1 = some i → ∃ w, weights[i]? = some w ∧ 0 < w
  /-- If anything has a weight, something is drawn, unless the weights are too heavy together for
  32 bits. -/
  weighted_some {weights : List Nat} (weight : 0 < total weights)
    (fits : total weights < 4294967296) (s : σ) : (weighted weights s).1 ≠ none

end Chance
end CardBattle
