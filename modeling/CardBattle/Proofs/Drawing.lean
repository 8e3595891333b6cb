import CardBattle.Piles

/-!
# CardBattle.Proofs.Drawing

What a draw does, in closed form. As long as the draw pile lasts, its top copies come to the hand
one after the other. When it runs out in the middle of a draw, the discard pile is shuffled once,
and the draw goes on with the top of that; there is nothing to shuffle a second time.

* `Piles.top`, `Piles.dealt`: the top copies of the draw pile, and the piles when they have come to
  the hand.
* `draw_dealt`: a draw that needs no shuffle. `draw_mixed`: a draw that shuffles.
* `Piles.Draws`, `draw_draws`: what is certain of every draw.
-/

namespace CardBattle
namespace Piles

open Chance

variable {σ : Type} [Generator σ]

/-- The top `n` copies of the draw pile, from its top down. -/
def top (n : Nat) (p : Piles) : List CardCopy := p.drawPile.reverse.take n

/-- The piles when the top `n` copies of the draw pile have come to the hand. -/
def dealt (n : Nat) (p : Piles) : Piles :=
  { p with drawPile := p.drawPile.take (p.drawPile.length - n), hand := p.hand ++ p.top n }

/-- The piles when the shuffled discard pile has become the draw pile. -/
def mixed (p : Piles) (s : σ) : Piles :=
  { p with drawPile := (Generator.shuffle p.discardPile s).1, discardPile := [] }

theorem length_mixed (p : Piles) (s : σ) :
    (p.mixed s).drawPile.length = p.discardPile.length :=
  (Generator.shuffle_perm p.discardPile s).length_eq

theorem length_top (n : Nat) (p : Piles) : (p.top n).length = min n p.drawPile.length := by
  simp [top]

theorem top_length (p : Piles) : p.top p.drawPile.length = p.drawPile.reverse :=
  List.take_of_length_le (Nat.le_of_eq List.length_reverse)

/-- The dealt copies and what is left are the draw pile. -/
theorem drawPile_dealt (n : Nat) (p : Piles) :
    p.drawPile = (p.dealt n).drawPile ++ (p.top n).reverse := by
  rw [dealt, top, List.take_reverse, List.reverse_reverse, List.take_append_drop]

/-! ## One copy -/

theorem refill_of_ne_nil {p : Piles} (h : p.drawPile ≠ []) (s : σ) :
    p.refill s = (false, p, s) := by
  simp [refill, h]

theorem refill_of_discardPile {p : Piles} (h : p.discardPile = []) (s : σ) :
    p.refill s = (false, p, s) := by
  simp [refill, h]

theorem refill_of_nil {p : Piles} (h : p.drawPile = []) (some : p.discardPile ≠ []) (s : σ) :
    p.refill s = (true, p.mixed s, (Generator.shuffle p.discardPile s).2) := by
  simp [refill, h, some, mixed]

theorem drawTop?_of_nil {p : Piles} (h : p.drawPile = []) : p.drawTop? = none := by
  simp [drawTop?, h]

theorem drawTop?_append {p : Piles} {rest : List CardCopy} {c : CardCopy}
    (h : p.drawPile = rest ++ [c]) :
    p.drawTop? = some (c.id, { p with drawPile := rest, hand := p.hand ++ [c] }) := by
  simp [drawTop?, h]

/-- Dealing one copy and then `n` more. -/
theorem dealt_succ {p : Piles} {rest : List CardCopy} {c : CardCopy}
    (h : p.drawPile = rest ++ [c]) (n : Nat) :
    p.top (n + 1) = c :: top n { p with drawPile := rest, hand := p.hand ++ [c] } ∧
      p.dealt (n + 1) = dealt n { p with drawPile := rest, hand := p.hand ++ [c] } := by
  have within : (rest ++ [c]).take (rest.length - n) = rest.take (rest.length - n) :=
    List.take_append_of_le_length (Nat.sub_le _ _)
  constructor
  · simp [top, h]
  · simp [dealt, top, h, within]

/-! ## Whole draws -/

/-- A draw that the draw pile covers, or that finds nothing to shuffle. By induction on the copies
left to draw. -/
theorem draw_dealt {n : Nat} {p : Piles} (s : σ)
    (h : n ≤ p.drawPile.length ∨ p.discardPile = []) :
    p.draw n s = (⟨(p.top n).map CardCopy.id, false⟩, p.dealt n, s) := by
  induction n generalizing p with
  | zero => simp [draw, top, dealt]
  | succ n ih =>
    rcases List.eq_nil_or_concat p.drawPile with empty | ⟨rest, c, pile⟩
    · have bare : p.discardPile = [] := by simpa [empty] using h
      have nothing : p.top (n + 1) = [] := by simp [top, empty]
      have same : p.dealt (n + 1) = p := by
        simp only [dealt, nothing, empty, List.take_nil, List.append_nil]
        rw [← empty]
      simp [draw, refill_of_discardPile bare, drawTop?_of_nil empty, same, nothing]
    · rw [List.concat_eq_append] at pile
      have covered : n ≤ rest.length ∨ p.discardPile = [] := by simpa [pile] using h
      have more : p.drawPile ≠ [] := by simp [pile]
      have further := ih (p := { p with drawPile := rest, hand := p.hand ++ [c] }) covered
      obtain ⟨first, left⟩ := dealt_succ pile n
      simp [draw, refill_of_ne_nil more, drawTop?_append pile, further, first, left]

/-- On an empty draw pile a draw begins with the shuffle. -/
theorem draw_of_nil {p : Piles} (empty : p.drawPile = []) (some : p.discardPile ≠ []) (n : Nat)
    (s : σ) :
    p.draw (n + 1) s =
      (⟨(top (n + 1) (p.mixed s)).map CardCopy.id, true⟩, dealt (n + 1) (p.mixed s),
        (Generator.shuffle p.discardPile s).2) := by
  rcases List.eq_nil_or_concat (p.mixed s).drawPile with none | ⟨rest, c, pile⟩
  · have length := length_mixed p s
    rw [none] at length
    exact absurd (List.length_eq_zero_iff.mp length.symm) some
  · rw [List.concat_eq_append] at pile
    obtain ⟨first, left⟩ := dealt_succ pile n
    have further := draw_dealt (n := n)
      (p := { p.mixed s with drawPile := rest, hand := (p.mixed s).hand ++ [c] })
      (Generator.shuffle p.discardPile s).2 (.inr rfl)
    simp [draw, refill_of_nil empty some, drawTop?_append pile, further, first, left]

/-- The piles when the draw pile has come to the hand and has been replaced. -/
def renewed (p : Piles) (s : σ) : Piles := mixed (p.dealt p.drawPile.length) s

/-- A draw that the draw pile does not cover goes on with the shuffled discard pile. By induction
on the copies left to draw. -/
theorem draw_mixed {n : Nat} {p : Piles} (s : σ) (short : p.drawPile.length < n)
    (some : p.discardPile ≠ []) :
    p.draw n s =
      (⟨(p.drawPile.reverse ++ top (n - p.drawPile.length) (p.renewed s)).map CardCopy.id,
          true⟩,
        dealt (n - p.drawPile.length) (p.renewed s), (Generator.shuffle p.discardPile s).2) := by
  induction n generalizing p with
  | zero => omega
  | succ n ih =>
    rcases List.eq_nil_or_concat p.drawPile with empty | ⟨rest, c, pile⟩
    · have same : p.renewed s = p.mixed s := by simp [renewed, mixed, dealt, top, empty]
      simp [draw_of_nil empty some, empty, same]
    · rw [List.concat_eq_append] at pile
      have more : p.drawPile ≠ [] := by simp [pile]
      have further := ih (p := { p with drawPile := rest, hand := p.hand ++ [c] })
        (by simpa [pile] using short) some
      have same : renewed { p with drawPile := rest, hand := p.hand ++ [c] } s = p.renewed s := by
        simp [renewed, mixed, dealt, top, pile]
      simp [draw, refill_of_ne_nil more, drawTop?_append pile, further, pile, same]

/-! ## Every draw -/

/-- What is certain of a draw of `n` copies that brings `cards` to the hand. -/
structure Draws (n : Nat) (p : Piles) (s : σ) (cards : List CardCopy) (told : Drawn)
    (p' : Piles) (s' : σ) : Prop where
  /-- The copies come to the right end of the hand, in the order in which they are told. -/
  hand : p'.hand = p.hand ++ cards
  ids : told.ids = cards.map CardCopy.id
  length : cards.length = min n (p.drawPile.length + p.discardPile.length)
  /-- The first copies are the draw pile from its top down. -/
  first : cards.take (min n p.drawPile.length) = p.drawPile.reverse.take n
  covered : n ≤ p.drawPile.length ∨ p.discardPile = [] →
    told.reshuffled = false ∧ s' = s ∧ p'.discardPile = p.discardPile ∧
      p.drawPile = p'.drawPile ++ cards.reverse
  /-- The further copies and what is left of the draw pile are the shuffled discard pile. -/
  mixed : p.drawPile.length < n → p.discardPile ≠ [] →
    told.reshuffled = true ∧ s' = (Generator.shuffle p.discardPile s).2 ∧ p'.discardPile = [] ∧
      p'.drawPile ++ (cards.drop p.drawPile.length).reverse =
        (Generator.shuffle p.discardPile s).1 ∧
      (cards.drop p.drawPile.length ++ p'.drawPile).Perm p.discardPile
  destroyed : p'.destroyed = p.destroyed
  inPlay : p'.inPlay = p.inPlay
  nextId : p'.nextId = p.nextId

theorem draws_dealt {n : Nat} {p : Piles} (s : σ)
    (h : n ≤ p.drawPile.length ∨ p.discardPile = []) :
    Draws n p s (p.top n) ⟨(p.top n).map CardCopy.id, false⟩ (p.dealt n) s where
  hand := rfl
  ids := rfl
  length := by
    rw [length_top]
    rcases h with enough | bare
    · omega
    · simp [bare]
  first := by
    rw [top, List.take_take, List.take_eq_take_iff, List.length_reverse]
    omega
  covered _ := ⟨rfl, rfl, rfl, drawPile_dealt n p⟩
  mixed short some := h.elim (fun enough => absurd enough (by omega)) (absurd · some)
  destroyed := rfl
  inPlay := rfl
  nextId := rfl

theorem draws_mixed {n : Nat} {p : Piles} (s : σ) (short : p.drawPile.length < n)
    (some : p.discardPile ≠ []) :
    Draws n p s (p.drawPile.reverse ++ top (n - p.drawPile.length) (p.renewed s))
      ⟨(p.drawPile.reverse ++ top (n - p.drawPile.length) (p.renewed s)).map CardCopy.id, true⟩
      (dealt (n - p.drawPile.length) (p.renewed s)) (Generator.shuffle p.discardPile s).2 where
  hand := by
    have before : (p.renewed s).hand = p.hand ++ p.drawPile.reverse := by
      rw [← top_length]
      rfl
    rw [← List.append_assoc, ← before]
    rfl
  ids := rfl
  length := by
    rw [List.length_append, List.length_reverse, length_top, renewed, length_mixed]
    simp only [dealt]
    omega
  first := by
    have reversed : p.drawPile.reverse.length = p.drawPile.length := List.length_reverse
    rw [List.take_append_of_le_length (by omega), List.take_eq_take_iff]
    omega
  covered h := by
    rcases h with enough | bare
    · omega
    · exact absurd bare some
  mixed _ _ := by
    have drawn : (p.renewed s).drawPile = (Generator.shuffle p.discardPile s).1 := rfl
    have parts := drawPile_dealt (n - p.drawPile.length) (p.renewed s)
    rw [drawn] at parts
    rw [List.drop_append_of_le_length (by simp), List.drop_of_length_le (by simp),
      List.nil_append]
    refine ⟨rfl, rfl, rfl, parts.symm, ?_⟩
    have same := parts ▸ Generator.shuffle_perm p.discardPile s
    exact (List.perm_append_comm.trans (.append_left _ (List.reverse_perm _).symm)).trans same
  destroyed := rfl
  inPlay := rfl
  nextId := rfl

/-- A draw brings as many copies as it is asked for, if the draw pile and the discard pile have
them, and it shuffles once, if at all. -/
theorem draw_draws (n : Nat) (p : Piles) (s : σ) :
    ∃ cards, Draws n p s cards (p.draw n s).1 (p.draw n s).2.1 (p.draw n s).2.2 := by
  by_cases h : n ≤ p.drawPile.length ∨ p.discardPile = []
  · rw [draw_dealt s h]
    exact ⟨_, draws_dealt s h⟩
  · rw [not_or, Nat.not_le] at h
    rw [draw_mixed s h.1 h.2]
    exact ⟨_, draws_mixed s h.1 h.2⟩

end Piles
end CardBattle
