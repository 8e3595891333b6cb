import CardBattle.Monster

/-!
# CardBattle.Catalog

Everything a battle may refer to by identifier. A shelf keeps its items in the order of their
identifiers, one item for each; a later item replaces an earlier one of the same identifier.

* `Shelf.insert`, `Shelf.find?`.
* `Catalog`: the shelves of cards, monsters, behaviors and skills.
-/

namespace CardBattle

class Identified (α : Type) where
  id : α → String

instance : Identified Card := ⟨Card.id⟩
instance : Identified Monster := ⟨Monster.id⟩
instance : Identified Behavior := ⟨Behavior.id⟩
instance : Identified Skill := ⟨Skill.id⟩

structure Shelf (α : Type) where
  items : List α := []

namespace Shelf

variable {α : Type} [Identified α]

def place (a : α) : List α → List α
  | [] => [a]
  | b :: bs =>
    if Identified.id a = Identified.id b then a :: bs
    else if Identified.id a < Identified.id b then a :: b :: bs
    else b :: place a bs

def insert (shelf : Shelf α) (a : α) : Shelf α := ⟨place a shelf.items⟩

def ofList (as : List α) : Shelf α := as.foldl insert {}

def find? (shelf : Shelf α) (id : String) : Option α :=
  shelf.items.find? fun a => Identified.id a == id

theorem find?_place_self (a : α) (bs : List α) :
    (place a bs).find? (fun b => Identified.id b == Identified.id a) = some a := by
  induction bs with
  | nil => simp [place]
  | cons b bs ih =>
    simp only [place]
    split
    · simp
    · split
      · simp
      · rename_i h _
        have h' : ¬ Identified.id b = Identified.id a := fun e => h e.symm
        simp [h', ih]

/-- What was placed last is what is found. -/
theorem find?_insert_self (shelf : Shelf α) (a : α) :
    (shelf.insert a).find? (Identified.id a) = some a := find?_place_self a shelf.items

end Shelf

structure Catalog where
  cards : Shelf Card := {}
  monsters : Shelf Monster := {}
  behaviors : Shelf Behavior := {}
  skills : Shelf Skill := {}

namespace Catalog

def ofLists (cards : List Card) (monsters : List Monster) (behaviors : List Behavior)
    (skills : List Skill) : Catalog :=
  { cards := .ofList cards, monsters := .ofList monsters, behaviors := .ofList behaviors
    skills := .ofList skills }

/-- Every card, in the order of the identifiers. -/
def pool (c : Catalog) : List Card := c.cards.items

end Catalog
end CardBattle
