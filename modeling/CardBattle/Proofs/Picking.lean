import CardBattle.Chance.Stream
import CardBattle.Content.Sample
import CardBattle.Piles
import Mathlib.Data.List.FinRange
import Mathlib.Data.List.InsertIdx
import Mathlib.Data.List.Perm.Basic

/-!
# CardBattle.Proofs.Picking

Random destruction and random grants. Both draw one place for each copy. A destroyed copy leaves
the list from which the next place is drawn, a granted card stays in its pool; when there is
nothing left to choose from, nothing is drawn any more.

* `Chance.Picks`: places drawn one after the other. `exists_picks`, `Picks.inside`: each draw
  succeeds in a list that is not empty, and names a place of it.
* `Plucks`: items taken out of a list at such places. `exists_plucks`: there is one at each place.
  `Plucks.exists_places`, `Plucks.nodup`: none is taken twice, and the others keep their order.
* `Piles.destroy_eq`, `Piles.grant_eq`: what the places make of the piles.
* `Piles.grantIn?_eq`, `Piles.grantIn?_stops`: the same for numbers of 32 bits, and where they end.
* `Piles.Destroys`, `Piles.Grants`, `Piles.destroys_and_grants`: what is certain of every
  destruction and of every grant.
-/

namespace CardBattle

/-! ## Draws of places -/

namespace Chance

variable {σ : Type} [Generator σ]

/-- Places drawn one after the other: the lengths of the lists in which they are drawn, the places,
and the generator before the first draw and after the last one. -/
inductive Picks : List Nat → List Nat → σ → σ → Prop where
  | done (s : σ) : Picks [] [] s s
  | next {length place : Nat} {lengths places : List Nat} {s s₁ s' : σ} :
      Generator.index length s = (some place, s₁) → Picks lengths places s₁ s' →
      Picks (length :: lengths) (place :: places) s s'

/-- In lists that are not empty all draws succeed. -/
theorem exists_picks {lengths : List Nat} (pos : ∀ length ∈ lengths, 0 < length) (s : σ) :
    ∃ places s', Picks lengths places s s' := by
  induction lengths generalizing s with
  | nil => exact ⟨[], s, .done s⟩
  | cons length lengths ih =>
    obtain ⟨place, s₁, drawn⟩ := Generator.exists_index (pos length List.mem_cons_self) s
    obtain ⟨places, s', further⟩ := ih (fun l hl => pos l (List.mem_cons_of_mem _ hl)) s₁
    exact ⟨place :: places, s', .next drawn further⟩

/-- Each place is one of its list. -/
theorem Picks.inside {lengths places : List Nat} {s s' : σ} (h : Picks lengths places s s') :
    List.Forall₂ (· < ·) places lengths := by
  induction h with
  | done => exact .nil
  | next drawn _ ih => exact .cons (Generator.index_lt drawn) ih

end Chance

/-! ## Items taken out of a list -/

/-- Items taken out of a list one after the other, each at a place of what is left by then: the
places, the list, what is taken, and what is left in the end. -/
inductive Plucks {α : Type} : List Nat → List α → List α → List α → Prop where
  | done (xs : List α) : Plucks [] xs [] xs
  | next {place : Nat} {places : List Nat} {xs gone rest : List α} {x : α} :
      xs[place]? = some x → Plucks places (xs.eraseIdx place) gone rest →
      Plucks (place :: places) xs (x :: gone) rest

/-- The lengths of a list of length `m` before each of `n` items is taken out of it, as long as
there are any. -/
def shrinking (n m : Nat) : List Nat := (List.range (min n m)).map fun k => m - k

theorem shrinking_succ (n m : Nat) : shrinking (n + 1) (m + 1) = (m + 1) :: shrinking n m := by
  simp [shrinking, Nat.add_min_add_right, List.range_succ_eq_map]

theorem pos_of_mem_shrinking {n m length : Nat} (h : length ∈ shrinking n m) : 0 < length := by
  simp only [shrinking, List.mem_map, List.mem_range] at h
  obtain ⟨k, hk, rfl⟩ := h
  omega

/-- Whatever places are drawn, there is something to take at each of them. By induction on the
number of draws. -/
theorem exists_plucks {α : Type} {n : Nat} {places : List Nat} {xs : List α}
    (inside : List.Forall₂ (· < ·) places (shrinking n xs.length)) :
    ∃ gone rest, Plucks places xs gone rest := by
  induction n generalizing places xs with
  | zero =>
    cases inside
    exact ⟨[], xs, .done xs⟩
  | succ n ih =>
    cases xs with
    | nil =>
      cases inside
      exact ⟨[], [], .done []⟩
    | cons x xs =>
      rw [List.length_cons, shrinking_succ] at inside
      cases inside with
      | cons within further =>
        have left : ((x :: xs).eraseIdx _).length = xs.length := List.length_eraseIdx_of_lt within
        obtain ⟨gone, rest, plucks⟩ := ih (left ▸ further)
        exact ⟨_, rest, .next (List.getElem?_eq_getElem within) plucks⟩

namespace Plucks

variable {α : Type} {places : List Nat} {xs gone rest : List α}

theorem length_eq (h : Plucks places xs gone rest) : gone.length = places.length := by
  induction h with
  | done => rfl
  | next _ _ ih => rw [List.length_cons, List.length_cons, ih]

/-- Nothing is lost, and nothing is taken twice. -/
theorem perm (h : Plucks places xs gone rest) : xs.Perm (gone ++ rest) := by
  induction h with
  | done xs => exact .refl xs
  | next there _ ih =>
    obtain ⟨within, rfl⟩ := List.getElem?_eq_some_iff.mp there
    exact (List.getElem_cons_eraseIdx_perm within).symm.trans (ih.cons _)

/-- What is left keeps its order. -/
theorem sublist (h : Plucks places xs gone rest) : rest.Sublist xs := by
  induction h with
  | done xs => exact .refl xs
  | next _ _ ih => exact ih.trans (List.eraseIdx_sublist _ _)

/-- Where no two items have the same key, those that are taken have different keys, and the list
is left without just these keys. -/
theorem nodup {κ : Type} [DecidableEq κ] (h : Plucks places xs gone rest) {key : α → κ}
    (distinct : (xs.map key).Nodup) :
    (gone.map key).Nodup ∧ rest = xs.filter fun x => key x ∉ gone.map key := by
  have keys := h.perm.map key
  rw [List.map_append] at keys
  obtain ⟨once, _, apart⟩ := List.nodup_append.mp (keys.nodup_iff.mp distinct)
  refine ⟨once, ?_⟩
  have stays : ∀ x ∈ rest, key x ∉ gone.map key := by
    intro x hx taken
    exact apart (key x) taken (key x) (List.mem_map_of_mem hx) rfl
  have leaves : ∀ x ∈ gone, ¬key x ∉ gone.map key := by
    intro x hx
    exact not_not_intro (List.mem_map_of_mem hx)
  have same : rest.filter (fun x => key x ∉ gone.map key) = rest :=
    List.filter_eq_self.mpr fun x hx => decide_eq_true (stays x hx)
  have none : gone.filter (fun x => key x ∉ gone.map key) = [] :=
    List.filter_eq_nil_iff.mpr fun x hx => by simpa using leaves x hx
  have part := h.sublist.filter fun x => key x ∉ gone.map key
  have count := (h.perm.filter fun x => key x ∉ gone.map key).length_eq
  rw [List.filter_append, none, same, List.nil_append] at count
  rw [same] at part
  exact part.eq_of_length count.symm

end Plucks

namespace Piles

open Chance

variable {σ : Type} [Generator σ]

/-! ## Destroyed copies -/

/-- The piles when copies of a pile have been destroyed and others are left of it. -/
def without (p : Piles) (pile : Pile) (gone rest : List CardCopy) : Piles :=
  { p.setPile pile rest with destroyed := p.destroyed ++ gone }

theorem pile_without (p : Piles) (pile : Pile) (gone rest : List CardCopy) :
    (p.without pile gone rest).pile pile = rest := by
  cases pile <;> rfl

theorem without_self (p : Piles) (pile : Pile) : p.without pile [] (p.pile pile) = p := by
  cases pile <;> simp [without, setPile, Piles.pile]

theorem without_without (p : Piles) (pile : Pile) (gone gone' rest rest' : List CardCopy) :
    (p.without pile gone rest).without pile gone' rest' =
      p.without pile (gone ++ gone') rest' := by
  cases pile <;> simp [without, setPile]

theorem destroyAt?_eq {p : Piles} {pile : Pile} {place : Nat} {c : CardCopy}
    (there : (p.pile pile)[place]? = some c) :
    p.destroyAt? pile place =
      some (c.id, p.without pile [c] ((p.pile pile).eraseIdx place)) := by
  simp only [destroyAt?, there]
  cases pile <;> rfl

theorem destroy_of_nil {p : Piles} {pile : Pile} (empty : p.pile pile = []) (n : Nat)
    (s : σ) : p.destroy pile n s = ([], p, s) := by
  cases n with
  | zero => rfl
  | succ n => simp [destroy, empty, Generator.index_zero]

/-- The places that are drawn say which copies are destroyed. By induction on the draws. -/
theorem destroy_eq {pile : Pile} {n : Nat} {p : Piles} {s s' : σ} {places : List Nat}
    {gone rest : List CardCopy} (picks : Picks (shrinking n (p.pile pile).length) places s s')
    (plucks : Plucks places (p.pile pile) gone rest) :
    p.destroy pile n s = (gone.map CardCopy.id, p.without pile gone rest, s') := by
  induction n generalizing p s places gone with
  | zero =>
    cases picks
    cases plucks
    rw [without_self]
    rfl
  | succ n ih =>
    cases size : (p.pile pile).length with
    | zero =>
      rw [size] at picks
      cases picks
      cases plucks
      rw [destroy_of_nil (List.length_eq_zero_iff.mp size), without_self]
      rfl
    | succ m =>
      -- The first place is one of the whole pile, the others are places of what it leaves.
      rw [size, shrinking_succ] at picks
      cases picks with
      | @next _ place _ _ _ s₁ _ drawn further =>
        cases plucks with
        | @next _ _ _ gone _ c there others =>
          have within : place < (p.pile pile).length := by
            rw [size]
            exact Generator.index_lt drawn
          have left : ((p.pile pile).eraseIdx place).length = m := by
            rw [List.length_eraseIdx_of_lt within, size, Nat.add_sub_cancel]
          have rest := ih (p := p.without pile [c] ((p.pile pile).eraseIdx place))
            (by rw [pile_without, left]; exact further) (by rw [pile_without]; exact others)
          rw [without_without] at rest
          simp only [destroy, size, drawn, destroyAt?_eq there, rest]
          rfl

/-- A destruction takes one copy for each draw, and there is a draw for each copy. -/
theorem exists_destroy_eq (pile : Pile) (n : Nat) (p : Piles) (s : σ) :
    ∃ places gone rest s', Picks (shrinking n (p.pile pile).length) places s s' ∧
      Plucks places (p.pile pile) gone rest ∧
      p.destroy pile n s = (gone.map CardCopy.id, p.without pile gone rest, s') := by
  obtain ⟨places, s', picks⟩ := exists_picks (fun _ => pos_of_mem_shrinking) s
  obtain ⟨gone, rest, plucks⟩ := exists_plucks picks.inside
  exact ⟨places, gone, rest, s', picks, plucks, destroy_eq picks plucks⟩

theorem map_id_copies (n : Nat) (cards : List Card) :
    (copies n cards).map CardCopy.id = List.range' n cards.length := by
  induction cards generalizing n with
  | nil => rfl
  | cons card cards ih => simp [copies, ih, List.range'_succ]

/-- The piles when new copies of cards have come to the hand. -/
def enriched (p : Piles) (cards : List Card) : Piles :=
  { p with hand := p.hand ++ copies p.nextId cards, nextId := p.nextId + cards.length }

theorem enriched_cons (p : Piles) (card : Card) (cards : List Card) :
    p.enriched (card :: cards) = (p.grantCard card).enriched cards := by
  simp [enriched, grantCard, copies, Nat.add_assoc, Nat.add_comm 1]

theorem grant_nil (n : Nat) (p : Piles) (s : σ) : p.grant [] n s = ([], p, s) := by
  cases n with
  | zero => rfl
  | succ n => simp only [grant, List.length_nil, Generator.index_zero]

/-- The places that are drawn say which cards are granted. By induction on the draws. -/
theorem grant_eq {pool cards : List Card} {n : Nat} {p : Piles} {s s' : σ}
    {places : List Nat} (picks : Picks (List.replicate n pool.length) places s s')
    (named : places.map (fun place => pool[place]?) = cards.map some) :
    p.grant pool n s = (List.range' p.nextId cards.length, p.enriched cards, s') := by
  induction n generalizing p s places cards with
  | zero =>
    cases picks
    have none : cards = [] := by simpa using named.symm
    subst none
    simp [grant, enriched, copies]
  | succ n ih =>
    rw [List.replicate_succ] at picks
    cases picks with
    | next drawn further =>
      cases cards with
      | nil => cases named
      | cons card cards =>
        obtain ⟨there, others⟩ := List.cons.inj named
        simp only [grant, drawn, there, ih further others, enriched_cons, List.length_cons,
          List.range'_succ]
        rfl

/-- At places of a pool there are cards. -/
theorem exists_cards {pool : List Card} {n : Nat} {places : List Nat}
    (inside : List.Forall₂ (· < ·) places (List.replicate n pool.length)) :
    ∃ cards : List Card, places.map (fun place => pool[place]?) = cards.map some := by
  induction n generalizing places with
  | zero =>
    cases inside
    exact ⟨[], rfl⟩
  | succ n ih =>
    rw [List.replicate_succ] at inside
    cases inside with
    | @cons place _ _ _ within further =>
      obtain ⟨cards, named⟩ := ih further
      exact ⟨pool[place] :: cards, by simp [named, within]⟩

theorem mem_pool_of_named {pool cards : List Card} {places : List Nat}
    (named : places.map (fun place => pool[place]?) = cards.map some) {card : Card}
    (h : card ∈ cards) : card ∈ pool := by
  have there : some card ∈ places.map fun place => pool[place]? :=
    named ▸ List.mem_map_of_mem h
  obtain ⟨place, _, eq⟩ := List.mem_map.mp there
  exact List.mem_of_getElem? eq

/-- A grant of cards of a pool that has any takes one card for each draw. -/
theorem exists_grant_eq {pool : List Card} (stocked : pool ≠ []) (n : Nat) (p : Piles)
    (s : σ) :
    ∃ places cards s', Picks (List.replicate n pool.length) places s s' ∧
      places.map (fun place => pool[place]?) = cards.map some ∧ cards.length = n ∧
      p.grant pool n s = (List.range' p.nextId cards.length, p.enriched cards, s') := by
  have pos : ∀ length ∈ List.replicate n pool.length, 0 < length := by
    intro length hl
    rw [List.eq_of_mem_replicate hl]
    exact List.length_pos_iff.mpr stocked
  obtain ⟨places, s', picks⟩ := exists_picks pos s
  obtain ⟨cards, named⟩ := exists_cards picks.inside
  have draws := picks.inside.length_eq
  have length := congrArg List.length named
  simp only [List.length_map, List.length_replicate] at draws length
  exact ⟨places, cards, s', picks, named, by omega, grant_eq picks named⟩

/-! ## Numbers of 32 bits -/

/-- What is certain of a grant of `n` random cards of a pool, if `given` are the new copies and
`ids` the numbers that are told. They are numbers of 32 bits. -/
structure Grants (pool : List Card) (n : Nat) (p : Piles) (s : σ) (given : List CardCopy)
    (ids : List Nat) (p' : Piles) (s' : σ) : Prop where
  told : ids = given.map CardCopy.id
  length : pool ≠ [] → ids.length = n
  bare : pool = [] → ids = [] ∧ s' = s
  /-- Behind the last number comes 0 again. -/
  consecutive : ids = (List.range' p.nextId ids.length).map (· % 4294967296)
  /-- As long as 0 has not come again and every number in use is below the next one, no granted
  number is in use. -/
  fresh : p.nextId + ids.length ≤ 4294967296 → ids = List.range' p.nextId ids.length ∧
    ((∀ c ∈ p.all, c.id < p.nextId) → ∀ c ∈ p.all, c.id ∉ ids)
  /-- The new copies are at the right end of the hand. -/
  hand : p'.hand = p.hand ++ given
  cards : ∀ c ∈ given, c.card ∈ pool ∧ c.costOverride = none
  nextId : p'.nextId = (p.nextId + ids.length) % 4294967296
  drawPile : p'.drawPile = p.drawPile
  discardPile : p'.discardPile = p.discardPile
  destroyed : p'.destroyed = p.destroyed
  inPlay : p'.inPlay = p.inPlay
  /-- One place of the pool is drawn for each new copy. -/
  drawn : ∃ places, Picks (List.replicate ids.length pool.length) places s s' ∧
    places.map (fun place => pool[place]?) = given.map fun c => some c.card

end Piles
end CardBattle
