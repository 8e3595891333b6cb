import CardBattle.Proofs.Session

/-!
# CardBattle.Proofs.Conservation

No copy is lost, doubled or turned into another card. Through a whole battle the copies in the
five places are those of the deck and those that were granted; what was destroyed stays
destroyed; and a played copy ends up on top of the discard pile.

* `Piles.Carries`: the copies of one state and those granted are the copies of the other.
  `Piles.Change.carries`, `Piles.Handover.carries` and `Step.carries` are its steps.
* `conserved_run`: the conservation of copies after every sequence of calls.
-/

namespace CardBattle

open Relation

def Event.granted : Event → List Nat
  | .cardsGranted ids => ids
  | _ => []

namespace Piles

/-- All copies, by what never changes in them. -/
def pairs (p : Piles) : List (Nat × Card) := p.all.map CardCopy.pair

/-- The copies of `p` are in `p'`, together with copies granted under new numbers, and the
destroyed ones are kept in order. -/
structure Carries (pool : List Card) (p : Piles) (ids : List Nat) (p' : Piles) : Prop where
  pairs : ∃ cards, cards.length = ids.length ∧ (∀ card ∈ cards, card ∈ pool) ∧
    p'.pairs.Perm (p.pairs ++ ids.zip cards)
  fresh : ids = List.range' p.nextId ids.length
  nextId : p'.nextId = p.nextId + ids.length
  destroyed : p.destroyed <+: p'.destroyed

variable {pool : List Card} {p p₁ p' : Piles}

theorem carries_of_perm (pairs : p'.pairs.Perm p.pairs) (nextId : p'.nextId = p.nextId)
    (destroyed : p.destroyed <+: p'.destroyed) : Carries pool p [] p' :=
  ⟨⟨[], rfl, by simp, by simpa using pairs⟩, rfl, by simpa using nextId, destroyed⟩

theorem Carries.refl (pool : List Card) (p : Piles) : Carries pool p [] p :=
  carries_of_perm (.refl _) rfl (List.prefix_refl _)

theorem Carries.trans {ids ids' : List Nat} (h : Carries pool p ids p₁)
    (h' : Carries pool p₁ ids' p') : Carries pool p (ids ++ ids') p' := by
  obtain ⟨cards, length, known, perm⟩ := h.pairs
  obtain ⟨cards', length', known', perm'⟩ := h'.pairs
  refine ⟨⟨cards ++ cards', by simp [length, length'], ?_, ?_⟩, ?_, ?_, ?_⟩
  · intro card hc
    exact (List.mem_append.mp hc).elim (known card) (known' card)
  · rw [List.zip_append length.symm, ← List.append_assoc]
    exact perm'.trans (perm.append_right _)
  · rw [List.length_append, ← List.range'_append_1, ← h.fresh, ← h.nextId, ← h'.fresh]
  · rw [h'.nextId, h.nextId, List.length_append, Nat.add_assoc]
  · exact h.destroyed.trans h'.destroyed

/-- Every number below the next one is the number of exactly one copy. -/
def Numbered (p : Piles) : Prop := (p.all.map CardCopy.id).Perm (List.range p.nextId)

theorem Numbered.nodup (h : p.Numbered) : (p.all.map CardCopy.id).Nodup :=
  h.nodup_iff.mpr List.nodup_range

theorem pile_sublist_all (p : Piles) (pile : Pile) : (p.pile pile).Sublist p.all := by
  have parts : p.all = p.drawPile ++ (p.hand ++ (p.discardPile ++ (p.destroyed ++
      p.inPlay.toList))) := by simp only [all, List.append_assoc]
  rw [parts]
  cases pile with
  | draw => exact List.sublist_append_left _ _
  | hand => exact (List.sublist_append_left _ _).trans (List.sublist_append_right _ _)
  | discard =>
    exact (List.sublist_append_left _ _).trans
      ((List.sublist_append_right _ _).trans (List.sublist_append_right _ _))

theorem not_mem_hand_of_nodup {p : Piles} {c : CardCopy}
    (distinct : (p.all.map CardCopy.id).Nodup) (hc : p.inPlay = some c) :
    c.id ∉ p.hand.map CardCopy.id := by
  simp only [all, hc, Option.toList_some, List.map_append] at distinct
  intro held
  exact (List.nodup_append.mp distinct).2.2 c.id (by simp [List.mem_map.mp held]) c.id (by simp)
    rfl

theorem map_fst_pairs (p : Piles) : p.pairs.map Prod.fst = p.all.map CardCopy.id := by
  rw [pairs, List.map_map]
  rfl

theorem Carries.numbered {ids : List Nat} (h : Carries pool p ids p') (hp : p.Numbered) :
    p'.Numbered := by
  obtain ⟨cards, length, _, perm⟩ := h.pairs
  have numbers := perm.map Prod.fst
  rw [List.map_append, List.map_fst_zip (by omega), map_fst_pairs, map_fst_pairs] at numbers
  rw [Numbered, h.nextId, List.range_add, ← List.range'_eq_map_range, ← h.fresh]
  exact numbers.trans (hp.append_right ids)

theorem map_pair_copies (n : Nat) (cards : List Card) :
    (copies n cards).map CardCopy.pair = (List.range' n cards.length).zip cards := by
  induction cards generalizing n with
  | nil => rfl
  | cons c cs ih =>
    simp only [copies, List.map_cons, ih, List.length_cons, List.range'_succ, List.zip_cons_cons]
    rfl

/-- The piles of a battle that has been built. -/
theorem pairs_shuffleDrawPile {σ : Type} [Chance.Generator σ] (deck : List Card) (s : σ) :
    ((ofCards deck).shuffleDrawPile s).1.pairs.Perm ((List.range deck.length).zip deck) := by
  have mixed : ((ofCards deck).shuffleDrawPile s).1.all.Perm (copies 0 deck) := by
    have perm := Chance.Generator.shuffle_perm (copies 0 deck).reverse s
    simpa [Piles.shuffleDrawPile, ofCards, all] using perm.trans (List.reverse_perm _)
  rw [List.range_eq_range', ← map_pair_copies]
  exact mixed.map _

theorem numbered_shuffleDrawPile {σ : Type} [Chance.Generator σ] (deck : List Card) (s : σ) :
    ((ofCards deck).shuffleDrawPile s).1.Numbered := by
  have numbers := (pairs_shuffleDrawPile deck s).map Prod.fst
  rw [map_fst_pairs, List.map_fst_zip (by simp)] at numbers
  exact numbers

end Piles

open Piles

theorem granted_ofCopies {tell : List Nat → Event} (h : ∀ ids, (tell ids).granted = [])
    (ids : List Nat) : (Event.ofCopies tell ids).flatMap Event.granted = [] := by
  simp only [Event.ofCopies]
  split <;> simp [h]

theorem Piles.Change.carries {σ : Type} [Chance.Generator σ] {pool : List Card} {p p' : Piles}
    {s s' : σ} {es : List Event} (h : p.Change pool s es p' s') :
    Carries pool p (es.flatMap Event.granted) p' := by
  classical
  cases h with
  | draw n =>
    obtain ⟨_, _, _, eq, _⟩ := draw_spec n p s
    have same := p.all_draw n s
    have silent : (p.draw n s).1.events.flatMap Event.granted = [] := by
      rw [Drawn.events, List.flatMap_append, granted_ofCopies (fun _ => rfl), List.append_nil]
      split <;> rfl
    rw [silent]
    rw [eq] at same ⊢
    exact carries_of_perm (same.map _) rfl (List.prefix_refl _)
  | grant n =>
    obtain ⟨cards, known, ids, eq⟩ := grant_spec pool n p s
    have told : (Event.ofCopies .cardsGranted (p.grant pool n s).1).flatMap Event.granted =
        List.range' p.nextId cards.length := by
      rw [← ids, Event.ofCopies]
      split
      · rename_i none
        simpa using (List.isEmpty_iff.mp none).symm
      · simp [Event.granted]
    rw [told, eq]
    refine ⟨⟨cards, by simp, known, ?_⟩, by simp, by simp, List.prefix_refl _⟩
    rw [← map_pair_copies, pairs, pairs, ← List.map_append]
    refine List.Perm.map _ ?_
    rw [List.perm_iff_count]
    intro c
    simp only [all, List.count_append]
    omega
  | destroy pile n =>
    obtain ⟨_, _, _, eq, _, _⟩ := destroy_spec pile n p s
    have same := p.all_destroy pile n s
    rw [granted_ofCopies (fun _ => rfl)]
    rw [eq] at same ⊢
    refine carries_of_perm (same.map _) ?_ (List.prefix_append _ _)
    cases pile <;> rfl
  | reduceCost h =>
    obtain ⟨hand, inPlay, hh, hi, eq⟩ := reduceCost?_spec h
    rw [eq]
    refine carries_of_perm ?_ rfl (List.prefix_refl _)
    have hi' := congrArg Option.toList hi
    simp only [Option.toList_map] at hi'
    simp only [pairs, all, List.map_append, hh, hi']
    exact .refl _

/-- A copy that goes into play stays among the others, and so does one that it finds there. -/
theorem Piles.pairs_beginPlay? {p p' : Piles} {id place : Nat} {c : CardCopy}
    (h : p.beginPlay? id = some (place, c, p')) : p'.pairs.Perm p.pairs := by
  classical
  obtain ⟨hc, _, eq⟩ := beginPlay?_spec h
  obtain ⟨bound, hc⟩ := List.getElem?_eq_some_iff.mp hc
  have perm := List.getElem_cons_eraseIdx_perm bound
  rw [hc] at perm
  rw [eq]
  refine List.Perm.map _ ?_
  rw [List.perm_iff_count]
  intro d
  have counts := perm.count_eq d
  simp only [all, List.count_append, List.count_cons, Option.toList_some, List.count_nil]
    at counts ⊢
  omega

theorem Piles.Handover.carries {pool : List Card} {p p' : Piles} {es : List Event}
    (h : p.Handover es p') : Carries pool p (es.flatMap Event.granted) p' := by
  classical
  cases h with
  | beginPlay target _ h =>
    have perm := pairs_beginPlay? h
    obtain ⟨_, _, eq⟩ := beginPlay?_spec h
    rw [eq] at perm ⊢
    exact carries_of_perm perm rfl (List.prefix_refl _)
  | finishPlay h =>
    refine carries_of_perm (List.Perm.map _ ?_) rfl (List.prefix_refl _)
    rw [List.perm_iff_count]
    intro c
    simp only [all, h, List.count_append, Option.toList_some, Option.toList_none, List.count_nil]
    omega

theorem Piles.carries_discardHand (pool : List Card) (p : Piles) :
    Carries pool p [] p.discardHand.2 := by
  classical
  refine carries_of_perm (List.Perm.map _ ?_) rfl (List.prefix_refl _)
  rw [List.perm_iff_count]
  intro c
  simp only [discardHand, all, List.count_append, List.count_nil]
  omega

/-! ## Steps -/

theorem Piles.Shift.carries {pool : List Card} {p p' : Piles} {es : List Event}
    (h : p.Shift pool es p') : Carries pool p (es.flatMap Event.granted) p' := by
  cases h with
  | still h =>
    have silent : es.flatMap Event.granted = [] := by
      rw [List.flatMap_eq_nil_iff]
      intro e he
      have other := List.all_eq_true.mp h e he
      cases e <;> first | rfl | cases other
    rw [silent]
    exact .refl pool p
  | change h => exact h.carries
  | sweep =>
    rw [granted_ofCopies (fun _ => rfl)]
    exact carries_discardHand pool p

theorem Step.carries {b b' : Battle} (h : Step b b') :
    b.Shifts (fun pool p es p' => p.Carries pool (es.flatMap Event.granted) p') b' := by
  obtain ⟨es, events, pool, shift | handover⟩ := h.shift
  · exact ⟨es, events, pool, shift.carries⟩
  · exact ⟨es, events, pool, handover.carries⟩

/-! ## Sessions -/

namespace Session

/-- From a state with the piles `p` on, copies are kept and granted as the history tells. -/
structure Keeps (cards : List Card) (p : Piles) (s : Session) : Prop where
  pool : s.battle.pool = cards
  carries : p.Carries cards (s.history.flatMap Event.granted) s.battle.player.piles

variable {cards : List Card} {p : Piles}

theorem keeps_step {s : Session} {b : Battle} (step : Step s.battle b) (h : s.Keeps cards p) :
    Keeps cards p { s with battle := b } := by
  obtain ⟨es, events, same, carries⟩ := step.carries
  rw [h.pool] at same carries
  refine ⟨same, ?_⟩
  rw [history_told events, List.flatMap_append]
  exact h.carries.trans carries

theorem keeps_drain {s : Session} (h : s.Keeps cards p) : (s.call .drain).Keeps cards p :=
  ⟨h.pool, by rw [history_drain]; exact h.carries⟩

/-- What is destroyed stays destroyed, in its order. -/
theorem destroyed_run {s : Session} (idle : s.Idle) (calls : List Call) :
    s.battle.player.piles.destroyed <+: (s.run calls).battle.player.piles.destroyed := by
  refine invariant_run
    (P := fun t => s.battle.player.piles.destroyed <+: t.battle.player.piles.destroyed)
    ?_ (fun _ h => h) idle (List.prefix_refl _) calls
  intro t b step h
  obtain ⟨_, _, _, carries⟩ := step.carries
  exact h.trans carries.destroyed

/-- The copies of a started battle are numbered at all times. -/
theorem numbered_run {c : Catalog} {settings : Settings} {seed : UInt64} {deck : List String}
    {foes : List Foe} {b : Battle} (h : Battle.start c settings seed deck foes = .ok b)
    (calls : List Call) : (run { battle := b } calls).battle.player.piles.Numbered := by
  refine invariant_of_start (P := fun s => s.battle.player.piles.Numbered) ?_ (fun _ hs => hs) h ?_
    calls
  · intro s b step hs
    obtain ⟨_, _, _, carries⟩ := step.carries
    exact carries.numbered hs
  · intro b₁ built
    obtain ⟨cards, _, _, _, _, rfl⟩ := Battle.build_eq_ok built
    exact numbered_shuffleDrawPile cards (Chance.Stream.ofSeed seed)

/-- The conservation of copies, seen between two calls: `deck` are the cards of the deck, and
`pool` those that can be granted. -/
structure Conserved (pool deck : List Card) (s : Session) : Prop where
  distinct : (s.battle.player.piles.all.map CardCopy.id).Nodup
  pairs : ∃ gifts : List Card, (∀ card ∈ gifts, card ∈ pool) ∧
    gifts.length = (s.history.flatMap Event.granted).length ∧
    s.battle.player.piles.pairs.Perm
      ((List.range deck.length).zip deck ++ (s.history.flatMap Event.granted).zip gifts)
  inPlay : s.battle.player.piles.inPlay = none
  destroyed : ∀ calls,
    s.battle.player.piles.destroyed <+: (s.run calls).battle.player.piles.destroyed
  played : ∀ copy target b, s.battle.play copy target = .ok b →
    ∃ c ∈ s.battle.player.piles.hand, c.id = copy ∧
      b.player.piles.discardPile.getLast?.map CardCopy.pair = some c.pair

theorem conserved_of_keeps {s : Session} {pool deck : List Card} {p : Piles}
    (pairs : p.pairs.Perm ((List.range deck.length).zip deck)) (numbered : p.Numbered)
    (h : s.Keeps pool p) (idle : s.Idle) : s.Conserved pool deck := by
  obtain ⟨gifts, length, known, perm⟩ := h.carries.pairs
  exact {
    distinct := (h.carries.numbered numbered).nodup
    pairs := ⟨gifts, known, length, perm.trans (pairs.append_right _)⟩
    inPlay := idle
    destroyed := destroyed_run idle
    played := fun _ _ _ hp => (Battle.discarded_of_play hp).2 }

theorem conserved_run {c : Catalog} {settings : Settings} {seed : UInt64} {deck : List String}
    {foes : List Foe} {b : Battle} (h : Battle.start c settings seed deck foes = .ok b)
    (calls : List Call) :
    ∃ cards, c.cardsOf deck = .ok cards ∧
      (run { battle := b } calls).Conserved c.pool cards := by
  obtain ⟨b₀, hb, _⟩ := Battle.exists_build_of_start h
  obtain ⟨cards, _, _, hc, _, built⟩ := Battle.build_eq_ok hb
  let p := ((ofCards cards).shuffleDrawPile (Chance.Stream.ofSeed seed)).1
  have keeps : (run { battle := b } calls).Keeps c.pool p := by
    refine invariant_of_start (fun _ _ => keeps_step) (fun _ => keeps_drain) h ?_ calls
    intro b₁ hb₁
    rw [hb, Except.ok.injEq] at hb₁
    rw [← hb₁, built]
    exact ⟨rfl, .refl _ _⟩
  exact ⟨cards, hc, conserved_of_keeps (pairs_shuffleDrawPile cards _)
    (numbered_shuffleDrawPile cards _) keeps (idle_run (idle_start h) calls)⟩

/-- The first play of the sample battle. -/
theorem conserved_sample :
    ∃ b cards, Battle.start Sample.catalog Sample.settings 1 ["strike", "mend", "echo"]
        [{ monsterId := "slime", hp := some 6 }] = .ok b ∧
      Sample.catalog.cardsOf ["strike", "mend", "echo"] = .ok cards ∧
      (run { battle := b } [.play 1 none]).Conserved Sample.catalog.pool cards := by
  obtain ⟨b, h⟩ := exists_start_sample
  obtain ⟨cards, hc, conserved⟩ := conserved_run h [.play 1 none]
  exact ⟨b, cards, h, hc, conserved⟩

end Session
end CardBattle
