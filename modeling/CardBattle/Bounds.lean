/-!
# CardBattle.Bounds

The ranges of the game's quantities. Amounts (hit points, shields, costs, gauges) are integers
of 32 bits, counts (stacks, cards, weights) are naturals of 32 bits; sums that leave their range
stop at its end, with two exceptions. Numbers that only ever go up by one (turns, casts, cards
played) are words, `UInt32`, and behind the last of them comes 0 again. So do the running totals of
weights, `Count.add`.
-/

namespace CardBattle
namespace Amount

def least : Int := -2147483648

def greatest : Int := 2147483647

/-- The nearest amount. -/
def saturate (n : Int) : Int := max least (min greatest n)

def InRange (n : Int) : Prop := least ≤ n ∧ n ≤ greatest

theorem saturate_inRange (n : Int) : InRange (saturate n) := by
  simp only [InRange, saturate, least, greatest]
  omega

theorem saturate_of_inRange {n : Int} (h : InRange n) : saturate n = n := by
  simp only [InRange, saturate, least, greatest] at *
  omega

end Amount

namespace Count

def greatest : Nat := 4294967295

def saturate (n : Nat) : Nat := min greatest n

theorem saturate_le (n : Nat) : saturate n ≤ greatest := Nat.min_le_left _ _

theorem saturate_of_le {n : Nat} (h : n ≤ greatest) : saturate n = n := Nat.min_eq_right h

/-- The sum of two counts in 32 bits: behind the greatest count comes 0 again. -/
def add (m n : Nat) : Nat := (m + n) % 4294967296

/-- What becomes of a count that is raised beyond its greatest: it begins again at 0, or nothing
goes on from there. -/
inductive Overflow where
  | wraps
  | stops
deriving DecidableEq

/-- The next count, if things go on. -/
def next? (o : Overflow) (n : Nat) : Option Nat :=
  if n < greatest then some (n + 1)
  else
    match o with
    | .wraps => some 0
    | .stops => none

end Count

/-- Lists with room for at most `n` items. -/
structure UpTo (n : Nat) (α : Type) where
  items : List α
  length_le : items.length ≤ n

namespace UpTo

variable {n : Nat} {α : Type}

def empty : UpTo n α := ⟨[], Nat.zero_le _⟩

instance : Inhabited (UpTo n α) := ⟨empty⟩

/-- Appends an item while there is room, and drops it otherwise. -/
def push (xs : UpTo n α) (a : α) : UpTo n α :=
  if h : xs.items.length < n then
    ⟨xs.items ++ [a], by simp only [List.length_append, List.length_singleton]; omega⟩
  else xs

/-- As many items as there is room for, from the front. -/
def ofList (as : List α) : UpTo n α := as.foldl push empty

/-- The list itself, if there is room for all of it. -/
def ofList? (as : List α) : Option (UpTo n α) :=
  if h : as.length ≤ n then some ⟨as, h⟩ else none

theorem ext_items {xs ys : UpTo n α} (h : xs.items = ys.items) : xs = ys := by
  cases xs
  cases ys
  simp_all

end UpTo
end CardBattle
