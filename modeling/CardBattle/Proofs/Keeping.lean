import CardBattle.Proofs.EchoBound
import CardBattle.Proofs.KillFlag
import CardBattle.Proofs.Reach

/-!
# CardBattle.Proofs.Keeping

What holds throughout the resolution of a card, however the cards echo each other. A property of
battles is looked at together with a property of frames: the effects and payments of a frame that
fits keep the one, and the frames of the echoes it calls for have the other again.

* `Frame.Free`, `CardCopy.AllFree`: frames and copies without slots of some kinds.
* `Keeps`: what has to be checked for single effects, payments and echoes.
* `Resolves.keeps`: what holds after any part of a resolution, by induction on it.
* `Battle.CopyResolves.keeps`: the same for a played copy.
* `Battle.exists_finishPlay_eq`: what is left of a play then.
-/

namespace CardBattle

open Relation CardBattle.Frame

/-- No slot of the frame is of these kinds. -/
def Frame.Free (avoid : EffectKind → Bool) (frame : Frame) : Prop :=
  ∀ s ∈ frame.slots, avoid s.kind = false

namespace CardCopy

/-- No copy in the list has a slot of these kinds. -/
def AllFree (avoid : EffectKind → Bool) (cs : List CardCopy) : Prop :=
  ∀ c ∈ cs, ∀ s ∈ c.card.slots.items, avoid s.kind = false

instance (avoid : EffectKind → Bool) (cs : List CardCopy) : Decidable (AllFree avoid cs) :=
  inferInstanceAs (Decidable (∀ c ∈ cs, ∀ s ∈ c.card.slots.items, avoid s.kind = false))

/-- What copies cost does not matter. -/
theorem AllFree.of_subset {avoid : EffectKind → Bool} {cs ds : List CardCopy} (h : AllFree avoid cs)
    (fewer : ds.map CardCopy.pair ⊆ cs.map CardCopy.pair) : AllFree avoid ds := by
  intro d hd
  obtain ⟨c, hc, same⟩ := List.mem_map.mp (fewer (List.mem_map_of_mem hd))
  have card : c.card = d.card := congrArg Prod.snd same
  rw [← card]
  exact h c hc

end CardCopy

/-- Frames that fit keep a property of battles with each effect and each payment, and the frames
of their echoes fit as well. -/
structure Keeps (fits : Frame → Prop) (I : Battle → Prop) : Prop where
  effect : ∀ {frame : Frame} {p : Progress} {s : Slot} {e : Effect}, fits frame →
    s ∈ frame.slots → s.kind ∈ e.kinds → I p.battle → I (frame.execute mute p e).battle
  payment : ∀ {frame : Frame} {s : Slot} {meter : Meter} {cost : Int} {b b' : Battle},
    fits frame → s ∈ frame.slots → s.kind = .spendRepeat →
    b.pay? frame.caster meter cost = some b' → I b → I b'
  echo : ∀ {frame : Frame} {place : Nat} {c : CardCopy} {b : Battle}, fits frame → I b →
    b.player.piles.hand[place]? = some c →
    fits (frame.ofEcho place c) ∧ I (b.emit (.cardEchoed c.id c.card.id))

/-- What a task runs are slots of its frame, and only a slot that repeats asks for payments. -/
def Task.Within (frame : Frame) : Task → Prop
  | .slots ss => ss ⊆ frame.slots
  | .payments ss _ _ _ => ss ⊆ frame.slots ∧ ∃ s ∈ frame.slots, s.kind = .spendRepeat
  | _ => True

namespace Frame

theorem plainSlots_subset (frame : Frame) : frame.plainSlots ⊆ frame.slots :=
  (List.takeWhile_sublist _).subset

/-- The slots behind a slot that repeats, and that slot itself. -/
theorem within_of_repeatSlot? {frame : Frame} {s : Slot} {ss : List Slot}
    (h : frame.repeatSlot? = some (s, ss)) :
    ss ⊆ frame.slots ∧ ∃ s ∈ frame.slots, s.kind = .spendRepeat := by
  have parts := slots_eq h
  constructor
  · intro t ht
    rw [parts]
    simp [ht]
  · exact ⟨s, by simp [parts], kind_of_repeatSlot? h⟩

end Frame

namespace Keeps

variable {fits : Frame → Prop} {I : Battle → Prop}

theorem runSlot (keeps : Keeps fits I) {frame : Frame} {p : Progress} {s : Slot}
    (fit : fits frame) (own : s ∈ frame.slots) (hp : I p.battle) :
    I (frame.runSlot mute p s).battle := by
  rw [runSlot_eq_execute]
  cases found : frame.effect? p s with
  | none => exact hp
  | some e => exact keeps.effect fit own (Effect.mem_kinds_of_read (read_of_effect? found)) hp

end Keeps

/-- From a frame that fits a resolution keeps the property, and so does each part of it. -/
theorem Resolves.keeps {fits : Frame → Prop} {I : Battle → Prop} (keeps : Keeps fits I) {σ : Scene}
    {t : Task} {p q : Progress} {ms : List Moment} (h : Resolves σ t p ms q) (fit : fits σ.frame)
    (within : t.Within σ.frame) (hp : I p.battle) : I q.battle := by
  induction h with
  | done => exact hp
  | @quiet σ s ss p q ms none rest ih =>
    obtain ⟨own, more⟩ := List.cons_subset.mp within
    exact ih fit more (keeps.runSlot fit own hp)
  | calls _ _ _ ih ih' =>
    obtain ⟨_, more⟩ := List.cons_subset.mp within
    exact ih' fit more (ih fit trivial hp)
  | spent _ => exact hp
  | refused _ _ => exact hp
  | paid _ pay _ _ ih ih' =>
    obtain ⟨own, s, hs, kind⟩ := within
    have paid := keeps.payment fit hs kind pay hp
    exact ih' fit ⟨own, s, hs, kind⟩ (ih fit own paid)
  | @plain σ _ _ _ _ _ ih => exact ih fit σ.frame.plainSlots_subset hp
  | @unrepeated σ _ _ _ _ _ _ _ _ ih => exact ih fit σ.frame.plainSlots_subset hp
  | @repeated σ s ss p p₁ q ms ms₁ meter cost budget slot run effect pos rest ih ih' =>
    exact ih' fit (within_of_repeatSlot? slot) (ih fit σ.frame.plainSlots_subset hp)
  | tooDeep _ => exact hp
  | absent _ _ => exact hp
  | echo _ held _ ih =>
    obtain ⟨fit', told⟩ := keeps.echo fit hp held
    exact ih fit' trivial told
  | unreached => exact hp
  | gone _ _ ih => exact ih fit trivial hp
  | reached _ _ _ ih ih' => exact ih' fit trivial (ih fit trivial hp)

namespace Battle

/-- A played copy resolves. What its card keeps may differ from what the echoes by swift keep,
since the shifts of the card lie between. -/
theorem CopyResolves.keeps {fits : Frame → Prop} {I J : Battle → Prop} (first : Keeps fits I)
    (second : Keeps fits J) {c : PlayedCopy} {target : Option FighterId} {b b' : Battle}
    {ms : List Moment} (h : CopyResolves c target b ms b') (fit : fits (c.frame target))
    (swift : I b.takeSwift.2) (shifts : ∀ b, I b → J (applyShifts c.card b)) : J b' := by
  obtain ⟨card, copies⟩ := h
  have ran := card.keeps first fit trivial swift
  exact copies.keeps second fit trivial (shifts _ ran)

/-! ## The end of a play -/

theorem exists_checkEnd_eq (b : Battle) :
    ∃ phase outcome events, b.checkEnd.2 = { b with phase, outcome, events } := by
  unfold checkEnd
  split
  · exact ⟨_, _, _, rfl⟩
  · split <;> exact ⟨_, _, _, rfl⟩

/-- The end of a play moves the copy in play to the discard pile, and may end the battle. -/
theorem exists_finishPlay_eq (b : Battle) :
    ∃ phase outcome events, b.finishPlay =
      { b with
        player := { b.player with piles := b.player.piles.finishPlay.2 }
        phase, outcome, events } := by
  unfold finishPlay
  cases h : b.player.piles.inPlay with
  | none =>
    obtain ⟨phase, outcome, events, eq⟩ := b.exists_checkEnd_eq
    refine ⟨phase, outcome, events, ?_⟩
    simp only [Piles.finishPlay, h, eq]
  | some c =>
    simp only [Piles.finishPlay, h]
    obtain ⟨phase, outcome, events, eq⟩ := exists_checkEnd_eq
      ({ b with
        player := { b.player with
          piles := { b.player.piles with
            inPlay := none, discardPile := b.player.piles.discardPile ++ [c] } } }.emit
        (.cardsDiscarded [c.id]))
    exact ⟨phase, outcome, events, eq⟩

end Battle
end CardBattle
