import CardBattle.Proofs.Conservation

/-!
# CardBattle.Proofs.Lasting

What stays as it is while cards resolve, or changes in one direction only. A resolution of the
player is a chain of acts: the deeds of slots, and echoes of held copies. It grants no copies, so
in contrast to whole turns it only moves the copies that are there.

* `Battle.echoes`: the echoes in the log.
* `Act`, `Acts`: what a resolution does.
* `Piles.live`, `Piles.Flows`: which copies leave the hand, and which come to it.
* `Battle.Lasting`, `Acts.lasting`: what acts leave.
-/

namespace CardBattle

open Relation

/-- The copy and the card of an echo. -/
def Event.echoed? : Event → Option (Nat × String)
  | .cardEchoed copy card => some (copy, card)
  | _ => none

theorem Event.echoed?_of_topic {e : Event} (h : e.topic ≠ .remark) : e.echoed? = none := by
  cases e <;> first | rfl | exact absurd rfl h

/-- What one act of a resolution does. -/
inductive Act : Battle → Battle → Prop where
  | deed {b b' : Battle} (h : Deed b b') : Act b b'
  | echo {b : Battle} {place : Nat} {c : CardCopy} (h : b.player.piles.hand[place]? = some c) :
      Act b (b.emit (.cardEchoed c.id c.card.id))

abbrev Acts : Battle → Battle → Prop := ReflTransGen Act

theorem Deeds.acts {b b' : Battle} (h : Deeds b b') : Acts b b' := h.lift id fun _ _ => Act.deed

theorem Battle.pay?_acts {caster : FighterId} {meter : Meter} {cost : Int} {b b' : Battle}
    (h : b.pay? caster meter cost = some b') : Acts b b' :=
  .single (.deed (pay?_deed h))

/-! ## The log -/

namespace Battle

/-- The echoes told so far. -/
def echoes (b : Battle) : List (Nat × String) := b.events.toList.filterMap Event.echoed?

theorem echoes_emitAll (b : Battle) {es : List Event} (h : ∀ e ∈ es, e.topic ≠ .remark) :
    (b.emitAll es).echoes = b.echoes := by
  have silent : es.filterMap Event.echoed? = [] := by
    rw [List.filterMap_eq_nil_iff]
    intro e he
    exact Event.echoed?_of_topic (h e he)
  rw [echoes, events_emitAll, List.filterMap_append, silent, List.append_nil, echoes]

theorem echoes_emit (b : Battle) (e : Event) :
    (b.emit e).echoes = b.echoes ++ e.echoed?.toList := by
  cases h : e.echoed? <;> simp [echoes, emit, h]

end Battle

theorem Deed.echoes {b b' : Battle} (h : Deed b b') : b'.echoes = b.echoes := by
  cases h with
  | @fighter id f f' es hf h =>
    have silent : ∀ e ∈ es, e.topic ≠ .remark := by
      intro e he
      simp [h.topic e he]
    rw [Battle.echoes_emitAll _ silent]
    cases id <;> rfl
  | @piles es _ _ h =>
    have silent : ∀ e ∈ es, e.topic ≠ .remark := by
      intro e he
      simp [h.topic e he]
    rw [Battle.echoes_emitAll _ silent]
    rfl
  | gauges shifts => exact (Battle.echoes_emit _ _).trans (List.append_nil _)
  | points h => exact (Battle.echoes_emit _ _).trans (List.append_nil _)
  | enqueue h => exact (Battle.echoes_emit _ _).trans (List.append_nil _)

theorem Deeds.echoes {b b' : Battle} (h : Deeds b b') : b'.echoes = b.echoes := by
  induction h with
  | refl => rfl
  | tail _ last ih => rw [last.echoes, ih]

/-! ## The copies -/

namespace Piles

/-- The copies in the hand from the left to the right, by what never changes in them. -/
def handPairs (p : Piles) : List (Nat × Card) := p.hand.map CardCopy.pair

def handIds (p : Piles) : List Nat := p.hand.map CardCopy.id

/-- The copies that can be drawn. -/
def stock (p : Piles) : List (Nat × Card) := (p.drawPile ++ p.discardPile).map CardCopy.pair

/-- All copies but the destroyed ones. -/
def live (p : Piles) : List CardCopy :=
  p.drawPile ++ p.hand ++ p.discardPile ++ p.inPlay.toList

theorem mem_live_iff {p : Piles} {x : Nat × Card} :
    x ∈ p.live.map CardCopy.pair ↔
      x ∈ p.handPairs ∨ x ∈ p.stock ∨ p.inPlay.map CardCopy.pair = some x := by
  simp only [live, handPairs, stock, List.map_append, List.mem_append, ← Option.toList_map,
    Option.mem_toList]
  tauto

/-- Copies leave the hand for good, and others come from the stock to its right end. -/
structure Flows (p p' : Piles) : Prop where
  hand : ∃ kept drawn, p'.handPairs = kept ++ drawn ∧ kept.Sublist p.handPairs ∧ drawn ⊆ p.stock
  stock : p'.stock ⊆ p.stock

theorem flows_of_eq {p p' : Piles} (hand : p'.handPairs = p.handPairs)
    (stock : p'.stock ⊆ p.stock) : p.Flows p' :=
  ⟨⟨p.handPairs, [], by simp [hand], .refl _, List.nil_subset _⟩, stock⟩

theorem Flows.refl (p : Piles) : p.Flows p := flows_of_eq rfl (List.Subset.refl _)

theorem Flows.trans {p p₁ p' : Piles} (h : p.Flows p₁) (h' : p₁.Flows p') : p.Flows p' := by
  obtain ⟨kept, drawn, eq, sub, known⟩ := h.hand
  obtain ⟨kept', drawn', eq', sub', known'⟩ := h'.hand
  rw [eq] at sub'
  obtain ⟨left, right, rfl, hl, hr⟩ := List.sublist_append_iff.mp sub'
  refine ⟨⟨left, right ++ drawn', ?_, hl.trans sub, ?_⟩, List.Subset.trans h'.stock h.stock⟩
  · rw [eq', List.append_assoc]
  · exact List.append_subset.mpr
      ⟨List.Subset.trans hr.subset known, List.Subset.trans known' h.stock⟩

theorem Change.flows {σ : Type} [Chance.Generator σ] {p p' : Piles} {s s' : σ}
    {es : List Event} (h : p.Change [] s es p' s') : p.Flows p' := by
  cases h with
  | draw n =>
    obtain ⟨cards, rest, _, eq, perm⟩ := draw_spec n p s
    have known : ∀ c ∈ cards ++ rest, c ∈ p.drawPile ++ p.discardPile := by
      intro c hc
      have there := perm.mem_iff.mpr hc
      simp only [reach] at there
      split at there
      · exact there
      · simp only [List.append_nil] at there
        exact List.mem_append_left _ there
    rw [eq]
    constructor
    case hand =>
      refine ⟨p.handPairs, cards.map CardCopy.pair, by simp [handPairs], .refl _, ?_⟩
      exact List.map_subset _ fun c hc => known c (List.mem_append_left _ hc)
    case stock =>
      refine List.map_subset _ fun c hc => ?_
      rcases List.mem_append.mp hc with hc | hc
      · exact known c (List.mem_append_right _ hc)
      · split at hc
        · cases hc
        · exact List.mem_append_right _ hc
  | grant n =>
    rw [grant_nil]
    exact .refl p
  | destroy pile n =>
    obtain ⟨gone, rest, _, eq, sub, _⟩ := destroy_spec pile n p s
    rw [eq]
    cases pile with
    | draw =>
      refine flows_of_eq rfl (List.map_subset _ ?_)
      exact List.append_subset.mpr
        ⟨fun c hc => List.mem_append_left _ (sub.subset hc), List.subset_append_right _ _⟩
    | hand =>
      exact ⟨⟨rest.map CardCopy.pair, [], by simp [handPairs, setPile], sub.map _,
        List.nil_subset _⟩, List.Subset.refl _⟩
    | discard =>
      refine flows_of_eq rfl (List.map_subset _ ?_)
      exact List.append_subset.mpr
        ⟨List.subset_append_left _ _, fun c hc => List.mem_append_right _ (sub.subset hc)⟩
  | reduceCost h =>
    obtain ⟨hand, inPlay, same, _, eq⟩ := reduceCost?_spec h
    rw [eq]
    exact flows_of_eq same (List.Subset.refl _)

/-- Without a card to grant, a change keeps all copies. -/
theorem Change.pairs {σ : Type} [Chance.Generator σ] {p p' : Piles} {s s' : σ}
    {es : List Event} (h : p.Change [] s es p' s') : p'.pairs.Perm p.pairs := by
  obtain ⟨cards, length, known, perm⟩ := h.carries.pairs
  cases cards with
  | nil => simpa using perm
  | cons card _ => cases known card List.mem_cons_self

end Piles

/-! ## Battles -/

/-- What a resolution leaves as it is, and the directions in which the rest goes. -/
structure Battle.Lasting (b b' : Battle) : Prop where
  settings : b'.settings = b.settings
  pairs : b'.player.piles.pairs.Perm b.player.piles.pairs
  inPlay : b'.player.piles.inPlay.map CardCopy.pair = b.player.piles.inPlay.map CardCopy.pair
  flows : b.player.piles.Flows b'.player.piles
  told : b.events.toList <+: b'.events.toList

namespace Battle

theorem Lasting.refl (b : Battle) : b.Lasting b :=
  ⟨rfl, .refl _, rfl, .refl _, List.prefix_refl _⟩

theorem Lasting.trans {b b₁ b' : Battle} (h : b.Lasting b₁) (h' : b₁.Lasting b') :
    b.Lasting b' :=
  ⟨h'.settings.trans h.settings, h'.pairs.trans h.pairs, h'.inPlay.trans h.inPlay,
    h.flows.trans h'.flows, h.told.trans h'.told⟩

theorem lasting_of_piles {b b' : Battle} {es : List Event} (settings : b'.settings = b.settings)
    (piles : b'.player.piles = b.player.piles)
    (events : b'.events.toList = b.events.toList ++ es) : b.Lasting b' :=
  ⟨settings, by rw [piles], by rw [piles], by rw [piles]; exact .refl _,
    events ▸ List.prefix_append _ _⟩

/-- What is destroyed does not come back. -/
theorem Lasting.live {b b' : Battle} (h : b.Lasting b') :
    b'.player.piles.live.map CardCopy.pair ⊆ b.player.piles.live.map CardCopy.pair := by
  obtain ⟨kept, drawn, eq, sub, known⟩ := h.flows.hand
  intro x hx
  rw [Piles.mem_live_iff] at hx ⊢
  rcases hx with hx | hx | hx
  · rw [eq] at hx
    rcases List.mem_append.mp hx with hx | hx
    · exact .inl (sub.subset hx)
    · exact .inr (.inl (known hx))
  · exact .inr (.inl (h.flows.stock hx))
  · exact .inr (.inr (h.inPlay ▸ hx))

theorem Lasting.nodup_iff {b b' : Battle} (h : b.Lasting b') :
    (b'.player.piles.all.map CardCopy.id).Nodup ↔
      (b.player.piles.all.map CardCopy.id).Nodup := by
  have perm := h.pairs.map Prod.fst
  rw [Piles.map_fst_pairs, Piles.map_fst_pairs] at perm
  exact perm.nodup_iff

theorem Lasting.inPlay_id {b b' : Battle} (h : b.Lasting b') :
    b'.player.piles.inPlay.map CardCopy.id = b.player.piles.inPlay.map CardCopy.id := by
  have same := congrArg (Option.map Prod.fst) h.inPlay
  rwa [Option.map_map, Option.map_map] at same

/-- The copy in play stays in play, and no copy is in the hand as well. -/
theorem Lasting.not_mem_handIds {b b' : Battle} (h : b.Lasting b')
    (distinct : (b.player.piles.all.map CardCopy.id).Nodup) {copy : Nat}
    (inPlay : b.player.piles.inPlay.map CardCopy.id = some copy) :
    copy ∉ b'.player.piles.handIds := by
  obtain ⟨d, hd, rfl⟩ := Option.map_eq_some_iff.mp (h.inPlay_id.trans inPlay)
  exact Piles.not_mem_hand_of_nodup (h.nodup_iff.mpr distinct) hd

end Battle

theorem Deed.lasting {b b' : Battle} (h : Deed b b') : b.Lasting b' := by
  cases h with
  | @fighter id f f' es hf h =>
    obtain ⟨_, _, eq⟩ := b.exists_setFighter_eq id f'
    rw [eq, Battle.emitAll_eq]
    exact Battle.lasting_of_piles rfl rfl Array.toList_append
  | @piles es p s h =>
    rw [Battle.emitAll_eq]
    exact ⟨rfl, h.pairs, (Piles.Shift.change h).inPlay, h.flows, by simp [Battle.setPiles]⟩
  | gauges shifts =>
    obtain ⟨_, _, eq⟩ := b.player.exists_shifts_eq shifts
    rw [eq]
    exact Battle.lasting_of_piles rfl rfl Array.toList_push
  | points h =>
    obtain ⟨_, eq⟩ := h.exists_eq
    rw [eq]
    exact Battle.lasting_of_piles rfl rfl Array.toList_push
  | enqueue _ => exact Battle.lasting_of_piles rfl rfl Array.toList_push

theorem Act.lasting {b b' : Battle} (h : Act b b') : b.Lasting b' := by
  cases h with
  | deed h => exact h.lasting
  | echo _ => exact Battle.lasting_of_piles rfl rfl Array.toList_push

theorem Acts.lasting {b b' : Battle} (h : Acts b b') : b.Lasting b' := by
  induction h with
  | refl => exact .refl b
  | tail _ last ih => exact ih.trans last.lasting

end CardBattle
