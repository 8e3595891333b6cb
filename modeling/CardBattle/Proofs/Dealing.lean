import CardBattle.Proofs.Move
import CardBattle.Proofs.Picking

/-!
# CardBattle.Proofs.Dealing

What the operations on the piles do to the copies in them, one statement for each. Random choices
are left open: a draw pile is only known up to its order, and any copies of a pile may be the
destroyed ones.

* `draw_spec`, `destroy_spec`, `grant_spec`: the random operations.
* `reduceCost?_spec`, `beginPlay?_spec`: what concerns one copy.
* `Piles.Shift`, `Stage.shift`, `Step.shift`: what a step does to the piles.
* `Stages.inPlay`: only a play changes which copy is in play.
-/

namespace CardBattle

/-- What never changes in a copy. -/
def CardCopy.pair (c : CardCopy) : Nat × Card := (c.id, c.card)

/-- In a list with distinct keys a key stands in one place. -/
theorem place_unique {α κ : Type} {key : α → κ} {xs : List α} (distinct : (xs.map key).Nodup)
    {j k : Nat} {x y : α} (hx : xs[j]? = some x) (hy : xs[k]? = some y) (same : key x = key y) :
    j = k := by
  have keys : (xs.map key)[j]? = (xs.map key)[k]? := by
    simp [hx, hy, same]
  have within : j < (xs.map key).length := by
    rw [List.length_map]
    exact (List.getElem?_eq_some_iff.mp hx).1
  exact (List.getElem?_inj within distinct).mp keys

namespace Piles

open Chance

variable {σ : Type} [Generator σ]

/-! ## Draws -/

/-- The copies that can be drawn: with a reshuffle also the discarded ones. -/
def reach (p : Piles) (reshuffled : Bool) : List CardCopy :=
  p.drawPile ++ if reshuffled then p.discardPile else []

theorem refill_spec {p p' : Piles} {s s' : σ} {refilled : Bool}
    (h : p.refill s = (refilled, p', s')) :
    ∃ mixed, p' =
        { p with drawPile := mixed, discardPile := if refilled then [] else p.discardPile } ∧
      (p.reach refilled).Perm mixed := by
  simp only [refill] at h
  split at h
  · rename_i empty
    simp only [Bool.and_eq_true, List.isEmpty_iff] at empty
    cases h
    refine ⟨_, rfl, ?_⟩
    simpa [reach, empty.1] using (Generator.shuffle_perm p.discardPile s).symm
  · cases h
    exact ⟨p.drawPile, rfl, by simp [reach]⟩

theorem drawTop?_spec {p p' : Piles} {id : Nat} (h : p.drawTop? = some (id, p')) :
    ∃ top rest, p.drawPile = rest ++ [top] ∧ id = top.id ∧
      p' = { p with drawPile := rest, hand := p.hand ++ [top] } := by
  simp only [drawTop?] at h
  split at h
  · cases h
  · rename_i top ht
    obtain ⟨rest, eq⟩ := List.getLast?_eq_some_iff.mp ht
    cases h
    exact ⟨top, rest, eq, rfl, by simp [eq]⟩

/-- A draw moves copies within reach to the end of the hand, in the order in which they are
told. By induction on the copies left to draw. -/
theorem draw_spec (n : Nat) (p : Piles) (s : σ) :
    ∃ cards rest, (p.draw n s).1.ids = cards.map CardCopy.id ∧
      (p.draw n s).2.1 =
        { p with
          drawPile := rest
          hand := p.hand ++ cards
          discardPile := if (p.draw n s).1.reshuffled then [] else p.discardPile } ∧
      (p.reach (p.draw n s).1.reshuffled).Perm (cards ++ rest) := by
  induction n generalizing p s with
  | zero => exact ⟨[], p.drawPile, rfl, by simp [draw], by simp [draw, reach]⟩
  | succ n ih =>
    rcases hr : p.refill s with ⟨refilled, p₁, s₁⟩
    obtain ⟨mixed, eq₁, perm₁⟩ := refill_spec hr
    cases ht : p₁.drawTop? with
    | none =>
      simp only [draw, hr, ht]
      exact ⟨[], mixed, rfl, by simp [eq₁], perm₁⟩
    | some r =>
      obtain ⟨id, p₂⟩ := r
      obtain ⟨top, left, pile, rfl, eq₂⟩ := drawTop?_spec ht
      obtain ⟨cards, rest, ids, eq, perm⟩ := ih p₂ s₁
      have shape : mixed = left ++ [top] := by rw [← pile, eq₁]
      simp only [draw, hr, ht]
      refine ⟨top :: cards, rest, by simp [ids], ?_, ?_⟩
      · rw [eq, eq₂, eq₁]
        cases refilled <;> simp
      · refine List.Perm.trans ?_ (perm.cons top)
        rw [shape] at perm₁
        have front : (left ++ [top]).Perm (top :: left) := List.perm_append_comm
        cases refilled with
        | true => simpa [reach, eq₂, eq₁] using perm₁.trans front
        | false =>
          have front' := front.append_right
            (if (p₂.draw n s₁).1.reshuffled then p.discardPile else [])
          have drawn : (p.drawPile).Perm (left ++ [top]) := by simpa [reach] using perm₁
          simpa [reach, eq₂, eq₁] using (drawn.append_right _).trans front'

/-- A draw leaves all copies where they can be found, with their costs. -/
theorem all_draw (n : Nat) (p : Piles) (s : σ) : (p.draw n s).2.1.all.Perm p.all := by
  classical
  obtain ⟨cards, rest, _, eq, perm⟩ := draw_spec n p s
  rw [eq, List.perm_iff_count]
  intro c
  have counts := perm.count_eq c
  cases hr : (p.draw n s).1.reshuffled <;>
    simp only [hr, reach, all, List.count_append, if_true, Bool.false_eq_true, if_false,
      List.count_nil] at counts ⊢ <;>
    omega

/-! ## Destroyed and granted copies -/

/-- Destroying takes copies out of a pile, which keeps its order, and puts them at the end of
the destroyed ones. -/
theorem destroy_spec (pile : Pile) (n : Nat) (p : Piles) (s : σ) :
    ∃ gone rest, (p.destroy pile n s).1 = gone.map CardCopy.id ∧
      (p.destroy pile n s).2.1 =
        { p.setPile pile rest with destroyed := p.destroyed ++ gone } ∧
      rest.Sublist (p.pile pile) ∧ (p.pile pile).Perm (gone ++ rest) := by
  obtain ⟨_, gone, rest, _, _, plucks, eq⟩ := exists_destroy_eq pile n p s
  rw [eq]
  exact ⟨gone, rest, rfl, rfl, plucks.sublist, plucks.perm⟩

/-- Destroyed copies are still there, with their costs. -/
theorem all_destroy (pile : Pile) (n : Nat) (p : Piles) (s : σ) :
    (p.destroy pile n s).2.1.all.Perm p.all := by
  classical
  obtain ⟨gone, rest, _, eq, _, perm⟩ := destroy_spec pile n p s
  rw [eq, List.perm_iff_count]
  intro c
  have counts := perm.count_eq c
  cases pile <;> simp only [setPile, Piles.pile, all, List.count_append] at counts ⊢ <;> omega

/-- Granting puts new copies of cards of the pool at the end of the hand. -/
theorem grant_spec (pool : List Card) (n : Nat) (p : Piles) (s : σ) :
    ∃ cards, (∀ card ∈ cards, card ∈ pool) ∧
      (p.grant pool n s).1 = List.range' p.nextId cards.length ∧
      (p.grant pool n s).2.1 =
        { p with
          hand := p.hand ++ copies p.nextId cards
          nextId := p.nextId + cards.length } := by
  by_cases stocked : pool = []
  · subst stocked
    rw [grant_nil]
    exact ⟨[], by simp, rfl, by simp [copies]⟩
  · obtain ⟨_, cards, _, _, named, _, eq⟩ := exists_grant_eq stocked n p s
    rw [eq]
    exact ⟨cards, fun _ => mem_pool_of_named named, rfl, rfl⟩

/-! ## Single copies -/

theorem map_pair_updateFirst (id : Nat) {f : CardCopy → CardCopy} (h : ∀ c, (f c).pair = c.pair)
    (cs : List CardCopy) : (updateFirst id f cs).map CardCopy.pair = cs.map CardCopy.pair := by
  induction cs with
  | nil => rfl
  | cons c cs ih =>
    simp only [updateFirst]
    split <;> simp [h, ih]

/-- A change of cost is the only change that a copy undergoes where it lies. -/
theorem reduceCost?_spec {p p' : Piles} {id : Nat} {amount cost : Int}
    (h : p.reduceCost? id amount = some (cost, p')) :
    ∃ hand inPlay, hand.map CardCopy.pair = p.hand.map CardCopy.pair ∧
      inPlay.map CardCopy.pair = p.inPlay.map CardCopy.pair ∧ p' = { p with hand, inPlay } := by
  have keeps : ∀ c : CardCopy, (c.reduceCost amount).pair = c.pair := fun _ => rfl
  simp only [reduceCost?] at h
  split at h
  · cases h
  · simp only [Option.some.injEq, Prod.mk.injEq] at h
    rw [← h.2]
    simp only [updateActive]
    split
    · rename_i c hc
      split
      · exact ⟨p.hand, _, rfl, by simp [hc, keeps], rfl⟩
      · exact ⟨_, p.inPlay, map_pair_updateFirst id keeps p.hand, rfl, rfl⟩
    · exact ⟨_, p.inPlay, map_pair_updateFirst id keeps p.hand, rfl, rfl⟩

theorem handPlace?_spec {p : Piles} {id place : Nat} (h : p.handPlace? id = some place) :
    ∃ c, p.hand[place]? = some c ∧ c.id = id := by
  obtain ⟨bound, found, _⟩ := List.findIdx?_eq_some_iff_getElem.mp h
  exact ⟨_, List.getElem?_eq_getElem bound, by simpa using found⟩

theorem handPlace?_eq_none_iff {p : Piles} {id : Nat} :
    p.handPlace? id = none ↔ id ∉ p.hand.map CardCopy.id := by
  simp [handPlace?, List.findIdx?_eq_none_iff]

theorem takeFromHand?_spec {p p' : Piles} {id place : Nat} {c : CardCopy}
    (h : p.takeFromHand? id = some (place, c, p')) :
    p.hand[place]? = some c ∧ c.id = id ∧ p' = { p with hand := p.hand.eraseIdx place } := by
  simp only [takeFromHand?] at h
  split at h
  · cases h
  · rename_i i there
    obtain ⟨d, held, same⟩ := handPlace?_spec there
    rw [held] at h
    cases h
    exact ⟨held, same, rfl⟩

theorem beginPlay?_spec {p p' : Piles} {id place : Nat} {c : CardCopy}
    (h : p.beginPlay? id = some (place, c, p')) :
    p.hand[place]? = some c ∧ c.id = id ∧
      p' =
        { p with
          hand := p.hand.eraseIdx place
          inPlay := some c
          discardPile := p.discardPile ++ p.inPlay.toList } := by
  simp only [beginPlay?] at h
  split at h
  · cases h
  · rename_i i d q hd
    simp only [Option.some.injEq, Prod.mk.injEq] at h
    obtain ⟨rfl, rfl, rfl⟩ := h
    obtain ⟨hi, hid, rfl⟩ := takeFromHand?_spec hd
    exact ⟨hi, hid, rfl⟩

end Piles

/-! ## Steps -/

/-- What a stage can do to the piles, with its events. -/
inductive Piles.Shift (pool : List Card) (p : Piles) : List Event → Piles → Prop where
  | still {es : List Event} (h : es.all fun e => e.topic != .copies) : Shift pool p es p
  | change {es : List Event} {p' : Piles} {s s' : Chance.Stream} (h : p.Change pool s es p' s') :
      Shift pool p es p'
  | sweep : Shift pool p (Event.ofCopies .cardsDiscarded p.discardHand.1) p.discardHand.2

/-- Events are told from `b` to `b'`, and the piles change in a way that fits to them. -/
def Battle.Shifts (change : List Card → Piles → List Event → Piles → Prop) (b b' : Battle) :
    Prop :=
  ∃ es, b'.events.toList = b.events.toList ++ es ∧ b'.pool = b.pool ∧
    change b.pool b.player.piles es b'.player.piles

namespace Battle

theorem shifts_setPiles {change : List Card → Piles → List Event → Piles → Prop} {b : Battle}
    {es : List Event} {p : Piles} (s : Chance.Stream) (h : change b.pool b.player.piles es p) :
    b.Shifts change ((b.setPiles p s).emitAll es) := by
  refine ⟨es, by rw [events_emitAll]; rfl, ?_, ?_⟩
  · rw [emitAll_eq]; rfl
  · rw [emitAll_eq]; exact h

theorem shifts_still {b b' : Battle} {es : List Event}
    (h : es.all fun e => e.topic != .copies) (pool : b'.pool = b.pool)
    (piles : b'.player.piles = b.player.piles)
    (events : b'.events.toList = b.events.toList ++ es) : b.Shifts Piles.Shift b' :=
  ⟨es, events, pool, by rw [piles]; exact .still h⟩

end Battle

theorem Move.shift {b b' : Battle} (h : Move b b') : b.Shifts Piles.Shift b' := by
  cases h with
  | @fighter id f f' es hf h =>
    obtain ⟨_, _, eq⟩ := b.exists_setFighter_eq id f'
    have silent : es.all fun e => e.topic != .copies := by
      rw [List.all_eq_true]
      intro e he
      rw [h.topic e he]
      rfl
    rw [eq, Battle.emitAll_eq]
    exact Battle.shifts_still silent rfl rfl Array.toList_append
  | piles h => exact Battle.shifts_setPiles _ (.change h)
  | gauges shifts =>
    obtain ⟨_, _, eq⟩ := b.player.exists_shifts_eq shifts
    rw [eq]
    exact Battle.shifts_still rfl rfl rfl Array.toList_push
  | points h =>
    obtain ⟨n, eq⟩ := h.exists_eq
    rw [eq]
    exact Battle.shifts_still rfl rfl rfl Array.toList_push
  | enqueue _ => exact Battle.shifts_still rfl rfl rfl Array.toList_push
  | tick => exact Battle.shifts_still rfl rfl rfl (List.append_nil _).symm
  | remark he => exact Battle.shifts_still (by simp [he]) rfl rfl Array.toList_push
  | choose id =>
    simp only [Battle.chooseIntent]
    split
    · exact Battle.shifts_still rfl rfl rfl (List.append_nil _).symm
    · obtain ⟨_, eq⟩ := Battle.exists_updateEnemy_eq _ id _
      rw [eq]
      exact Battle.shifts_still rfl rfl rfl Array.toList_push
  | @cast id _ _ _ _ =>
    obtain ⟨_, eq⟩ := b.exists_updateEnemy_eq id _
    rw [eq]
    exact Battle.shifts_still rfl rfl rfl Array.toList_push

theorem Stage.shift {b b' : Battle} (h : Stage b b') : b.Shifts Piles.Shift b' := by
  cases h with
  | move h => exact h.shift
  | opening _ => exact Battle.shifts_still rfl rfl rfl Array.toList_push
  | playerTurn => exact Battle.shifts_still rfl rfl rfl b.events_turnBegun
  | sweep => exact Battle.shifts_setPiles _ .sweep
  | enemyTurn => exact Battle.shifts_still rfl rfl rfl Array.toList_push
  | @ending o _ => exact Battle.shifts_still rfl rfl rfl (b.events_ended o)

/-- The piles change by a shift, or a play begins or ends. -/
theorem Step.shift {b b' : Battle} (h : Step b b') :
    b.Shifts (fun pool p es p' => p.Shift pool es p' ∨ p.Handover es p') b' := by
  cases h with
  | stage h =>
    obtain ⟨es, events, pool, shift⟩ := h.shift
    exact ⟨es, events, pool, .inl shift⟩
  | handover h => exact Battle.shifts_setPiles _ (.inr h)

/-! ## The copy in play -/

theorem Piles.Shift.inPlay {pool : List Card} {p p' : Piles} {es : List Event}
    (h : p.Shift pool es p') : p'.inPlay.map CardCopy.pair = p.inPlay.map CardCopy.pair := by
  cases h with
  | still _ => rfl
  | sweep => rfl
  | @change _ _ s _ h =>
    cases h with
    | draw n =>
      obtain ⟨_, _, _, eq, _⟩ := draw_spec n p s
      rw [eq]
    | grant n =>
      obtain ⟨_, _, _, eq⟩ := grant_spec pool n p s
      rw [eq]
    | destroy pile n =>
      obtain ⟨_, _, _, eq, _⟩ := destroy_spec pile n p s
      rw [eq]
      cases pile <;> rfl
    | reduceCost h =>
      obtain ⟨_, _, _, kept, eq⟩ := reduceCost?_spec h
      rw [eq]
      exact kept

/-- Only a play changes which copy is in play. -/
theorem Stages.inPlay {b b' : Battle} (h : Stages b b') :
    b'.player.piles.inPlay.map CardCopy.pair = b.player.piles.inPlay.map CardCopy.pair := by
  induction h with
  | refl => rfl
  | tail _ last ih =>
    obtain ⟨_, _, _, shift⟩ := last.shift
    exact shift.inPlay.trans ih

end CardBattle
