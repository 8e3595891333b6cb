import CardBattle.Card
import CardBattle.Chance.Generator

/-!
# CardBattle.Piles

The player's copies of cards and where they lie. Every copy is in one of five places: the draw
pile, the hand, the discard pile, the destroyed set, or in play while it resolves. Lists run
from the bottom of a pile to its top, and from the left of the hand to its right.

* `draw`: from the top of the draw pile; an empty one is refilled by the shuffled discard pile.
* `destroy`, `grant`: random copies leave for good, random cards arrive as new copies.
* `beginPlay`, `finishPlay`: the way of a played copy, through play to the discard pile.
* `Anchor`, `neighbor`: who stands next to a copy.
-/

namespace CardBattle

/-- A copy of a card in one battle. Its number is never used again; its cost can change. -/
structure CardCopy where
  id : Nat
  card : Card
  costOverride : Option Int := none

namespace CardCopy

def cost (c : CardCopy) : Int := max 0 (c.costOverride.getD c.card.cost)

def reduceCost (amount : Int) (c : CardCopy) : CardCopy :=
  { c with costOverride := some (max 0 (Amount.saturate (c.cost - amount))) }

theorem cost_nonneg (c : CardCopy) : 0 ≤ c.cost := by
  simp only [cost]
  omega

@[simp] theorem id_reduceCost (amount : Int) (c : CardCopy) : (c.reduceCost amount).id = c.id :=
  rfl

@[simp] theorem card_reduceCost (amount : Int) (c : CardCopy) :
    (c.reduceCost amount).card = c.card := rfl

end CardCopy

/-- The piles from which copies can be destroyed at random. -/
inductive Pile where
  | draw
  | hand
  | discard
deriving DecidableEq

instance : Vocabulary Pile where
  values := [.draw, .hand, .discard]
  word
    | .draw => "Draw"
    | .hand => "Hand"
    | .discard => "Discard"

inductive Side where
  | left
  | right
deriving DecidableEq

instance : Vocabulary Side where
  values := [.left, .right]
  word
    | .left => "Left"
    | .right => "Right"

/-- The place in the hand from which neighbours are counted: the former place of a copy that
has been played, or the place of a copy still held. -/
inductive Anchor where
  | played (place : Nat)
  | held (place : Nat)
deriving DecidableEq

/-- The place `distance` copies to one side. What stood right of a played copy has moved one
place to the left. In a battle the distance is a count, and the place is one of the hand: a word
holds their sum. -/
def Anchor.offset? (a : Anchor) (side : Side) (distance : Nat) : Option Nat :=
  if distance = 0 then none
  else
    match a, side with
    | .played i, .left | .held i, .left => if distance ≤ i then some (i - distance) else none
    | .played i, .right => some (i + distance - 1)
    | .held i, .right => some (i + distance)

/-- The same in words of 64 bits: on the right side, behind the last place comes place 0 again. -/
def Anchor.wordOffset? (a : Anchor) (side : Side) (distance : UInt64) : Option UInt64 :=
  (a.offset? side distance.toNat).map UInt64.ofNat

structure Drawn where
  ids : List Nat
  /-- Whether the discard pile was shuffled into the draw pile. -/
  reshuffled : Bool

structure Piles where
  drawPile : List CardCopy := []
  hand : List CardCopy := []
  discardPile : List CardCopy := []
  destroyed : List CardCopy := []
  inPlay : Option CardCopy := none
  /-- The number of the next copy. -/
  nextId : Nat := 0

namespace Piles

open Chance

variable {σ : Type} [Generator σ]

/-- Copies of cards, numbered in order from `n` on. -/
def copies : Nat → List Card → List CardCopy
  | _, [] => []
  | n, c :: cs => { id := n, card := c } :: copies (n + 1) cs

/-- A draw pile with the first card on top. -/
def ofCards (cards : List Card) : Piles :=
  { drawPile := (copies 0 cards).reverse, nextId := cards.length }

def shuffleDrawPile (p : Piles) (s : σ) : Piles × σ :=
  let (mixed, s) := Generator.shuffle p.drawPile s
  ({ p with drawPile := mixed }, s)

/-- Shuffles the discard pile into an empty draw pile, and tells whether it did. -/
def refill (p : Piles) (s : σ) : Bool × Piles × σ :=
  if p.drawPile.isEmpty && !p.discardPile.isEmpty then
    let (mixed, s) := Generator.shuffle p.discardPile s
    (true, { p with drawPile := mixed, discardPile := [] }, s)
  else (false, p, s)

/-- The top of the draw pile goes to the right end of the hand. -/
def drawTop? (p : Piles) : Option (Nat × Piles) :=
  match p.drawPile.getLast? with
  | none => none
  | some top =>
    some (top.id, { p with drawPile := p.drawPile.dropLast, hand := p.hand ++ [top] })

/-- Draws up to `n` copies, as many as there are. -/
def draw : Nat → Piles → σ → Drawn × Piles × σ
  | 0, p, s => (⟨[], false⟩, p, s)
  | n + 1, p, s =>
    let (refilled, p, s) := p.refill s
    match p.drawTop? with
    | none => (⟨[], refilled⟩, p, s)
    | some (id, p) =>
      let (rest, p, s) := draw n p s
      (⟨id :: rest.ids, refilled || rest.reshuffled⟩, p, s)

def handPlace? (p : Piles) (id : Nat) : Option Nat := p.hand.findIdx? fun c => c.id == id

/-- Takes the copy with a number out of the hand; also answers its place. -/
def takeFromHand? (p : Piles) (id : Nat) : Option (Nat × CardCopy × Piles) :=
  match p.handPlace? id with
  | none => none
  | some i =>
    match p.hand[i]? with
    | none => none
    | some c => some (i, c, { p with hand := p.hand.eraseIdx i })

/-- Moves one copy from the hand to the discard pile, if it is in the hand. -/
def discard? (p : Piles) (id : Nat) : Option Piles :=
  match p.takeFromHand? id with
  | none => none
  | some (_, c, p) => some { p with discardPile := p.discardPile ++ [c] }

def discardHand (p : Piles) : List Nat × Piles :=
  (p.hand.map CardCopy.id, { p with hand := [], discardPile := p.discardPile ++ p.hand })

def pile (p : Piles) : Pile → List CardCopy
  | .draw => p.drawPile
  | .hand => p.hand
  | .discard => p.discardPile

def setPile (p : Piles) (pile : Pile) (copies : List CardCopy) : Piles :=
  match pile with
  | .draw => { p with drawPile := copies }
  | .hand => { p with hand := copies }
  | .discard => { p with discardPile := copies }

/-- The copy at a place of a pile goes to the destroyed set. -/
def destroyAt? (p : Piles) (pile : Pile) (i : Nat) : Option (Nat × Piles) :=
  match (p.pile pile)[i]? with
  | none => none
  | some c =>
    let p := p.setPile pile ((p.pile pile).eraseIdx i)
    some (c.id, { p with destroyed := p.destroyed ++ [c] })

/-- Destroys up to `n` random copies of a pile. -/
def destroy (pile : Pile) : Nat → Piles → σ → List Nat × Piles × σ
  | 0, p, s => ([], p, s)
  | n + 1, p, s =>
    match Generator.index (p.pile pile).length s with
    | (none, s) => ([], p, s)
    | (some i, s) =>
      match p.destroyAt? pile i with
      | none => ([], p, s)
      | some (id, p) =>
        let (ids, p, s) := destroy pile n p s
        (id :: ids, p, s)

/-- A new copy of a card at the right end of the hand. The numbers do not end here; `grantIn?` says
how far those of 32 bits go. -/
def grantCard (p : Piles) (card : Card) : Piles :=
  { p with hand := p.hand ++ [{ id := p.nextId, card }], nextId := p.nextId + 1 }

/-- Grants `n` random cards of a pool, none if the pool is empty. -/
def grant (pool : List Card) : Nat → Piles → σ → List Nat × Piles × σ
  | 0, p, s => ([], p, s)
  | n + 1, p, s =>
    match Generator.index pool.length s with
    | (none, s) => ([], p, s)
    | (some i, s) =>
      match pool[i]? with
      | none => ([], p, s)
      | some card =>
        let (ids, granted, s) := grant pool n (p.grantCard card) s
        (p.nextId :: ids, granted, s)

/-- A new copy of a card, with a number of 32 bits. -/
def mint? (o : Count.Overflow) (p : Piles) (card : Card) : Option (CardCopy × Piles) :=
  match Count.next? o p.nextId with
  | none => none
  | some nextId => some ({ id := p.nextId, card }, { p with nextId })

/-- As `grant`, with numbers of 32 bits. -/
def grantIn? (o : Count.Overflow) (pool : List Card) :
    Nat → Piles → σ → Option (List Nat × Piles × σ)
  | 0, p, s => some ([], p, s)
  | n + 1, p, s =>
    match Generator.index pool.length s with
    | (none, s) => some ([], p, s)
    | (some i, s) =>
      match pool[i]? with
      | none => some ([], p, s)
      | some card =>
        match p.mint? o card with
        | none => none
        | some (c, p) =>
          match grantIn? o pool n { p with hand := p.hand ++ [c] } s with
          | none => none
          | some (ids, p, s) => some (c.id :: ids, p, s)

/-- Moves a copy from the hand into play; answers its former place and the copy. A copy that
was still in play is discarded. -/
def beginPlay? (p : Piles) (id : Nat) : Option (Nat × CardCopy × Piles) :=
  match p.takeFromHand? id with
  | none => none
  | some (i, c, p) =>
    some (i, c, { p with inPlay := some c, discardPile := p.discardPile ++ p.inPlay.toList })

/-- Moves the copy in play to the discard pile. -/
def finishPlay (p : Piles) : Option Nat × Piles :=
  match p.inPlay with
  | none => (none, p)
  | some c => (some c.id, { p with inPlay := none, discardPile := p.discardPile ++ [c] })

/-- The copy in play or in the hand with a number. -/
def activeCopy? (p : Piles) (id : Nat) : Option CardCopy :=
  match p.inPlay with
  | some c => if c.id = id then some c else p.hand.find? fun c => c.id == id
  | none => p.hand.find? fun c => c.id == id

/-- Changes the first copy in a list with a number. -/
def updateFirst (id : Nat) (f : CardCopy → CardCopy) : List CardCopy → List CardCopy
  | [] => []
  | c :: cs => if c.id = id then f c :: cs else c :: updateFirst id f cs

def updateActive (id : Nat) (f : CardCopy → CardCopy) (p : Piles) : Piles :=
  match p.inPlay with
  | some c =>
    if c.id = id then { p with inPlay := some (f c) }
    else { p with hand := updateFirst id f p.hand }
  | none => { p with hand := updateFirst id f p.hand }

/-- Lowers the cost of the active copy with a number; answers the new cost. -/
def reduceCost? (id : Nat) (amount : Int) (p : Piles) : Option (Int × Piles) :=
  match p.activeCopy? id with
  | none => none
  | some c => some ((c.reduceCost amount).cost, p.updateActive id (CardCopy.reduceCost amount))

/-- The held copy `distance` places to one side of an anchor, with its place. -/
def neighbor? (p : Piles) (a : Anchor) (side : Side) (distance : Nat) :
    Option (Nat × CardCopy) :=
  match a.offset? side distance with
  | none => none
  | some i => (p.hand[i]?).map fun c => (i, c)

/-- The held copy at a distance that is any word. -/
def wordNeighbor? (p : Piles) (a : Anchor) (side : Side) (distance : UInt64) :
    Option (Nat × CardCopy) :=
  match a.wordOffset? side distance with
  | none => none
  | some i => (p.hand[i.toNat]?).map fun c => (i.toNat, c)

/-- All copies, the destroyed ones included. -/
def all (p : Piles) : List CardCopy :=
  p.drawPile ++ p.hand ++ p.discardPile ++ p.destroyed ++ p.inPlay.toList

end Piles
end CardBattle
