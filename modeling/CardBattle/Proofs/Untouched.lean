import CardBattle.Proofs.Keeping
import CardBattle.Proofs.Payments

/-!
# CardBattle.Proofs.Untouched

Plays that leave the copies where they are. Copies are drawn and destroyed by three kinds of slots.
If neither the played card nor a held one has such a slot, then nothing moves but the played copy,
and nothing is drawn by lot, whichever cards echo each other on the way. If the cards do not change
or spend the player's means either, the player pays once, for the played copy, and the gauges shift
once, by the shifts of its card: an echo costs nothing and shifts nothing.

* `Battle.Rests`: every copy lies where it lay.
* `rests_keeps`, `means_keeps`: what a resolution keeps then.
* `Battle.Poised`, `Player.Gauged`: what holds between two calls, by `Session.poised_run` and
  `Session.gauged_run`.
* `Battle.untouched_of_play`: what a whole play leaves.
-/

namespace CardBattle

open Relation CardBattle.Frame

namespace EffectKind

/-- The kinds that draw copies or destroy them. -/
def stirs : EffectKind → Bool
  | .drawCards | .burnDeck | .burnHand => true
  | _ => false

/-- The kinds that change the gauges or the action points, or spend them. -/
def taps : EffectKind → Bool
  | .angelUp | .angelDown | .demonUp | .demonDown | .gainAction | .spendRepeat => true
  | _ => false

end EffectKind

/-- With different numbers a copy is taken out of a list by its place or by its number. -/
theorem CardCopy.eraseIdx_eq_filter {cs : List CardCopy} (distinct : (cs.map CardCopy.id).Nodup)
    {place : Nat} {c : CardCopy} (held : cs[place]? = some c) :
    cs.eraseIdx place = cs.filter fun d => d.id != c.id := by
  induction cs generalizing place with
  | nil => rfl
  | cons d ds ih =>
    obtain ⟨fresh, distinct⟩ := List.nodup_cons.mp distinct
    cases place with
    | zero =>
      cases held
      have others : ∀ e ∈ ds, (e.id != c.id) = true := by
        intro e he
        rw [bne_iff_ne]
        intro same
        exact fresh (same ▸ List.mem_map_of_mem he)
      simp [List.filter_eq_self.mpr others]
    | succ place =>
      have there : c.id ∈ ds.map CardCopy.id :=
        List.mem_map_of_mem (List.mem_of_getElem? held)
      have other : (d.id != c.id) = true := by
        rw [bne_iff_ne]
        intro same
        exact fresh (same ▸ there)
      rw [List.eraseIdx_cons_succ, ih distinct held, List.filter_cons, if_pos other]

namespace Battle

/-! ## Copies at rest -/

/-- Every copy lies where it lay, and nothing was drawn by lot. The costs of the held copies and of
the copy in play may differ. -/
structure Rests (b b' : Battle) : Prop where
  drawPile : b'.player.piles.drawPile = b.player.piles.drawPile
  hand : b'.player.piles.handPairs = b.player.piles.handPairs
  discardPile : b'.player.piles.discardPile = b.player.piles.discardPile
  destroyed : b'.player.piles.destroyed = b.player.piles.destroyed
  inPlay : b'.player.piles.inPlay.map CardCopy.pair = b.player.piles.inPlay.map CardCopy.pair
  chance : b'.chance = b.chance

variable {b b₁ b' : Battle}

theorem Rests.trans (h : b.Rests b₁) (h' : b₁.Rests b') : b.Rests b' :=
  ⟨h'.drawPile.trans h.drawPile, h'.hand.trans h.hand, h'.discardPile.trans h.discardPile,
    h'.destroyed.trans h.destroyed, h'.inPlay.trans h.inPlay, h'.chance.trans h.chance⟩

theorem rests_of_piles (piles : b'.player.piles = b.player.piles) (chance : b'.chance = b.chance) :
    b.Rests b' := by
  constructor <;> first | rw [piles] | exact chance

/-- What is not about the copies leaves them at rest. -/
theorem rests_of_alters {who : FighterId → Prop} {part : Effect.Part} (h : b.Alters who part b')
    (other : part ≠ .copies) : b.Rests b' := by
  obtain ⟨piles, chance⟩ := h.copies_eq other
  exact rests_of_piles piles chance

theorem reduceCost_rests (copy : Nat) (amount : Int) (b : Battle) :
    b.Rests (b.reduceCost copy amount) := by
  unfold reduceCost
  split
  · exact rests_of_piles rfl rfl
  · rename_i cost piles lowered
    obtain ⟨hand, inPlay, sameHand, sameInPlay, rfl⟩ := Piles.reduceCost?_spec lowered
    exact ⟨rfl, sameHand, rfl, rfl, sameInPlay, rfl⟩

end Battle

open Battle

theorem Frame.execute_rests (frame : Frame) (p : Progress) {s : Slot} {e : Effect}
    (own : s.kind ∈ e.kinds) (calm : s.kind.stirs = false) :
    p.battle.Rests (frame.execute mute p e).battle := by
  have alters := frame.execute_alters p e
  cases e with
  | reduceCost amount =>
    simp only [execute]
    split
    · exact rests_of_piles rfl rfl
    · exact reduceCost_rests _ _ _
  | drawCards n =>
    rw [List.mem_singleton.mp own] at calm
    cases calm
  | burn pile n =>
    cases pile with
    | discard => cases own
    | _ =>
      rw [List.mem_singleton.mp own] at calm
      cases calm
  | _ =>
    refine rests_of_alters alters fun part => ?_
    cases part

/-! ## What resolutions keep -/

/-- The frame of an echo is as free as the hand that the copy is held in. -/
theorem Frame.free_ofEcho {avoid : EffectKind → Bool} {b b₁ : Battle} {place : Nat} {c : CardCopy}
    (hand : CardCopy.AllFree avoid b.player.piles.hand) (rests : b.Rests b₁)
    (held : b₁.player.piles.hand[place]? = some c) (frame : Frame) :
    (frame.ofEcho place c).Free avoid := by
  have fewer : b₁.player.piles.handPairs ⊆ b.player.piles.handPairs := rests.hand ▸ fun _ => id
  exact hand.of_subset fewer c (List.mem_of_getElem? held)

theorem rests_keeps {b : Battle} (hand : CardCopy.AllFree EffectKind.stirs b.player.piles.hand) :
    Keeps (Frame.Free EffectKind.stirs) b.Rests where
  effect := by
    intro frame p s e free there own rests
    exact rests.trans (frame.execute_rests p own (free s there))
  payment _ _ _ pay rests := rests.trans (rests_of_alters (pay?_alters pay) (by decide))
  echo := by
    intro frame place c b₁ _ rests held
    exact ⟨free_ofEcho hand rests held frame, rests.trans (rests_of_piles rfl rfl)⟩

/-- The kinds that move copies or concern the player's means. -/
def EffectKind.isBusy (k : EffectKind) : Bool := k.stirs || k.taps

theorem Frame.level_of_calm (frame : Frame) (p : Progress) {s : Slot} {e : Effect}
    (own : s.kind ∈ e.kinds) (calm : s.kind.isBusy = false) (m : Meter) :
    (frame.execute mute p e).battle.player.level m = p.battle.player.level m := by
  refine frame.level_of_part p ?_
  intro part
  cases e with
  | shiftGauge gauge delta =>
    cases gauge <;>
      obtain kind | kind := List.mem_pair.mp own <;> rw [kind] at calm <;> cases calm
  | gainAction n =>
    rw [List.mem_singleton.mp own] at calm
    cases calm
  | _ => cases part

/-- Without a slot about the player's means the meters show what they showed, whatever that is. -/
theorem means_keeps {b : Battle} (hand : CardCopy.AllFree EffectKind.isBusy b.player.piles.hand)
    (shown : Meter → Int) :
    Keeps (Frame.Free EffectKind.isBusy)
      (fun b₁ => b.Rests b₁ ∧ ∀ m, b₁.player.level m = shown m) where
  effect := by
    rintro frame p s e free there own ⟨rests, meters⟩
    have calm := free s there
    have still : s.kind.stirs = false := (Bool.or_eq_false_iff.mp calm).1
    refine ⟨rests.trans (frame.execute_rests p own still), fun m => ?_⟩
    exact (frame.level_of_calm p own calm m).trans (meters m)
  payment := by
    intro frame s meter cost b₁ b₂ free there kind _ _
    have calm := free s there
    rw [kind] at calm
    cases calm
  echo := by
    rintro frame place c b₁ _ ⟨rests, meters⟩ held
    exact ⟨free_ofEcho hand rests held frame, rests.trans (rests_of_piles rfl rfl), meters⟩

/-! ## Plays -/

namespace Battle

variable {b b' : Battle}

/-- A state between two calls: all numbers are different, and no copy is in play. -/
structure Poised (b : Battle) : Prop where
  distinct : (b.player.piles.all.map CardCopy.id).Nodup
  idle : b.player.piles.inPlay = none

end Battle

/-- Both gauges are within their bounds. -/
structure Player.Gauged (p : Player) : Prop where
  angel : Settings.clampGauge p.angel = p.angel
  demon : Settings.clampGauge p.demon = p.demon

theorem Settings.clampGauge_saturate (n : Int) :
    clampGauge (Amount.saturate n) = clampGauge n := by
  simp only [clampGauge, gaugeMax, Amount.saturate, Amount.least, Amount.greatest]
  omega

theorem Player.Ranged.gauged {p : Player} (h : p.Ranged) : p.Gauged := by
  have angel := clampGauge_of_bounds h.angel_nonneg h.angel_le
  have demon := clampGauge_of_bounds h.demon_nonneg h.demon_le
  rw [Settings.clampGauge_saturate] at angel demon
  exact ⟨angel, demon⟩

namespace Session

variable {c : Catalog} {settings : Settings} {seed : UInt64} {deck : List String}
  {foes : List Foe} {b : Battle}

/-- Every state between two calls of a started battle is poised. -/
theorem poised_run (h : Battle.start c settings seed deck foes = .ok b) (calls : List Call) :
    (run { battle := b } calls).battle.Poised :=
  ⟨(numbered_run h calls).nodup, idle_run (idle_start h) calls⟩

theorem gauged_run (points : Amount.InRange settings.maxActionPoints)
    (h : Battle.start c settings seed deck foes = .ok b) (calls : List Call) :
    (run { battle := b } calls).battle.player.Gauged := by
  refine Player.Ranged.gauged ?_
  refine invariant_of_start (P := fun s => s.battle.player.Ranged)
    (fun _ _ step hs => step.rangedPlayer hs) (fun _ hs => hs) h ?_ calls
  intro b₀ built
  obtain ⟨_, _, _, _, _, rfl⟩ := Battle.build_eq_ok built
  exact Player.ranged_fresh _ _ points

end Session

namespace Battle

variable {b b' : Battle}

/-- The played copy `c` has gone to the discard pile. Every other copy lies where it lay, and
nothing was drawn by lot. Of the held copies and of the played one only the costs may differ. -/
structure Untouched (b : Battle) (c : CardCopy) (b' : Battle) : Prop where
  drawPile : b'.player.piles.drawPile = b.player.piles.drawPile
  hand : b'.player.piles.hand.map CardCopy.pair =
    (b.player.piles.hand.filter fun d => d.id != c.id).map CardCopy.pair
  discardPile : ∃ d : CardCopy, d.pair = c.pair ∧
    b'.player.piles.discardPile = b.player.piles.discardPile ++ [d]
  destroyed : b'.player.piles.destroyed = b.player.piles.destroyed
  inPlay : b'.player.piles.inPlay = none
  chance : b'.chance = b.chance

/-- The player has paid for the copy `c`, and the gauges have shifted by its card. -/
structure PaidOnce (b : Battle) (c : CardCopy) (b' : Battle) : Prop where
  points : b'.player.actionPoints = b.player.actionPoints - c.cost
  angel : b'.player.angel = Settings.clampGauge (b.player.angel + c.card.angelShift)
  demon : b'.player.demon = Settings.clampGauge (b.player.demon + c.card.demonShift)

variable {c : CardCopy} {copy place : Nat} {piles : Piles} {target : Option FighterId}

theorem player_opened (cost : c.cost ≤ b.player.actionPoints) :
    (b.opened c piles target).player =
      { b.player with piles, actionPoints := b.player.actionPoints - c.cost } := by
  have paid : ({ b.player with piles } : Player).spendAction? c.cost =
      some { b.player with piles, actionPoints := b.player.actionPoints - max 0 c.cost } :=
    if_neg (Int.not_lt.mpr cost)
  have positive : max 0 c.cost = c.cost := Int.max_eq_right c.cost_nonneg
  simp only [opened, paid, Option.getD_some, emit, emitActionPoints, positive]

/-- While the played copy resolves, everything rests. -/
theorem untouched_of_rests {b₁ : Battle} (poised : b.Poised)
    (begun : b.player.piles.beginPlay? copy = some (place, c, piles))
    (rests : (b.opened c piles target).Rests b₁) : b.Untouched c b₁.finishPlay := by
  obtain ⟨held, _, eq⟩ := Piles.beginPlay?_spec begun
  have opened := b.piles_opened c piles target
  have inPlay := rests.inPlay
  rw [opened, eq] at inPlay
  obtain ⟨d, hd, same⟩ := Option.map_eq_some_iff.mp inPlay
  obtain ⟨_, _, _, finished⟩ := b₁.exists_finishPlay_eq
  rw [finished]
  simp only [Piles.finishPlay, hd]
  constructor
  case drawPile => rw [rests.drawPile, opened, eq]
  case hand =>
    have distinct : (b.player.piles.hand.map CardCopy.id).Nodup :=
      poised.distinct.sublist ((Piles.pile_sublist_all b.player.piles .hand).map _)
    have hand := rests.hand
    rw [opened, eq, Piles.handPairs, Piles.handPairs] at hand
    rw [hand, CardCopy.eraseIdx_eq_filter distinct held]
  case discardPile =>
    refine ⟨d, same, ?_⟩
    rw [rests.discardPile, opened, eq, poised.idle]
    simp
  case destroyed => rw [rests.destroyed, opened, eq]
  case inPlay => rfl
  case chance => exact rests.chance

end Battle

/-- What the meters show after the shifts of a card. -/
def Player.shifted (p : Player) (card : Card) : Meter → Int
  | .angel => Settings.clampGauge (p.angel + card.angelShift)
  | .demon => Settings.clampGauge (p.demon + card.demonShift)
  | .actionPoints => p.actionPoints

namespace Battle

theorem level_applyShifts {b : Battle} {p : Player} (gauged : p.Gauged)
    (same : ∀ m, b.player.level m = p.level m) (card : Card) (m : Meter) :
    (applyShifts card b).player.level m = p.shifted card m := by
  have angel : b.player.angel = p.angel := same .angel
  have demon : b.player.demon = p.demon := same .demon
  have points : b.player.actionPoints = p.actionPoints := same .actionPoints
  unfold applyShifts
  split
  · rename_i none
    cases m with
    | angel => simp only [Player.level, Player.shifted, none.1, Int.add_zero, angel, gauged.angel]
    | demon => simp only [Player.level, Player.shifted, none.2, Int.add_zero, demon, gauged.demon]
    | actionPoints => exact points
  · cases m with
    | angel =>
      show Settings.clampGauge (Amount.saturate (b.player.angel + card.angelShift)) = _
      rw [Settings.clampGauge_saturate, angel]
      rfl
    | demon =>
      show Settings.clampGauge (Amount.saturate (b.player.demon + card.demonShift)) = _
      rw [Settings.clampGauge_saturate, demon]
      rfl
    | actionPoints => exact points

variable {b b' : Battle} {copy : Nat} {target : Option FighterId}

/-- An accepted play, if neither the played card nor another held one draws or destroys copies:
nothing but the played copy moves, and nothing is drawn by lot. If the held cards do not concern the
player's means either, the player pays for the played copy, and its card alone shifts the gauges,
which are within their bounds. -/
theorem untouched_of_play (poised : b.Poised) (h : b.play copy target = .ok b')
    (calm : CardCopy.AllFree EffectKind.stirs b.player.piles.hand) :
    ∃ c ∈ b.player.piles.hand, c.id = copy ∧ b.Untouched c b' ∧
      (CardCopy.AllFree EffectKind.taps b.player.piles.hand → b.player.Gauged →
        b.PaidOnce c b') := by
  obtain ⟨place, c, piles, begun, cost, eq⟩ := exists_of_play h
  obtain ⟨held, id, left⟩ := Piles.beginPlay?_spec begun
  obtain ⟨ms, b₁, resolved⟩ := exists_copyResolves { copy := c.id, card := c.card, place } target
    (b.opened c piles target)
  have there : c ∈ b.player.piles.hand := List.mem_of_getElem? held
  have answered : b' = b₁.finishPlay := by rw [eq, playCopy_eq, resolved.eq]
  -- What is still held was held before.
  have fewer : (b.opened c piles target).player.piles.handPairs ⊆ b.player.piles.handPairs := by
    rw [piles_opened, left]
    exact List.map_subset _ (List.eraseIdx_sublist _ _).subset
  have swift := rests_of_alters (b.opened c piles target).takeSwift_alters (by decide)
  refine ⟨c, there, id, ?_, fun taps gauged => ?_⟩
  · have rests := rests_keeps (calm.of_subset fewer)
    have ended := resolved.keeps rests rests (calm c there) swift
      fun b₂ now => now.trans (rests_of_alters (applyShifts_alters c.card b₂) (by decide))
    exact answered ▸ untouched_of_rests poised begun ended
  · have still : CardCopy.AllFree EffectKind.isBusy b.player.piles.hand := fun d hd s hs =>
      Bool.or_eq_false_iff.mpr ⟨calm d hd s hs, taps d hd s hs⟩
    have paid : (b.opened c piles target).player.Gauged := by
      rw [player_opened cost]
      exact ⟨gauged.angel, gauged.demon⟩
    have before := means_keeps (still.of_subset fewer) (b.opened c piles target).player.level
    have after := means_keeps (still.of_subset fewer)
      ((b.opened c piles target).player.shifted c.card)
    have untapped : ∀ m, (b.opened c piles target).takeSwift.2.player.level m =
        (b.opened c piles target).player.level m := by
      intro m
      obtain ⟨_, _, same⟩ :=
        (b.opened c piles target).takeSwift_alters.exists_player_eq (by decide)
      rw [same]
      cases m <;> rfl
    obtain ⟨_, meters⟩ := resolved.keeps before after (still c there) ⟨swift, untapped⟩
      fun b₂ now =>
        ⟨now.1.trans (rests_of_alters (applyShifts_alters c.card b₂) (by decide)),
          level_applyShifts paid now.2 c.card⟩
    obtain ⟨_, _, _, finished⟩ := b₁.exists_finishPlay_eq
    rw [player_opened cost] at meters
    rw [answered, finished]
    exact ⟨meters .actionPoints, meters .angel, meters .demon⟩

/-! ## An echo -/

def fanfare : Card :=
  { id := "fanfare", name := "Fanfare", cost := 1, angelShift := 10
    description := "Cast the card to the right."
    slots := .ofList [Sample.slot .castMore "Right,1"] }

def chorus : Card :=
  { id := "chorus", name := "Chorus", cost := 2, demonShift := 20
    description := "Deal 5 damage to all enemies. Cast the card to the right."
    slots := .ofList [Sample.slot .areaDamage "5", Sample.slot .castMore "Right,1"] }

/-- A fanfare echoes the two choruses beside it. It alone is paid for and shifts a gauge. -/
theorem untouched_of_play_fanfare :
    ∃ b c, (dealt [fanfare, chorus, chorus] 3).play 0 none = .ok b ∧ c.card = fanfare ∧
      (dealt [fanfare, chorus, chorus] 3).Untouched c b ∧
      b.player.actionPoints = 2 ∧ b.player.angel = 60 ∧ b.player.demon = 50 := by
  obtain ⟨b, played⟩ := exists_play_dealt [fanfare, chorus, chorus] 3 0 rfl (by decide)
  have poised : (dealt [fanfare, chorus, chorus] 3).Poised := ⟨by decide, rfl⟩
  obtain ⟨c, held, id, untouched, paid⟩ := untouched_of_play poised played (by decide)
  have first : c = { id := 0, card := fanfare } := by
    have hand : c ∈ Piles.copies 0 [fanfare, chorus, chorus] := held
    simp only [Piles.copies, List.mem_cons, List.not_mem_nil, or_false] at hand
    obtain rfl | rfl | rfl := hand
    · rfl
    · cases id
    · cases id
  obtain ⟨points, angel, demon⟩ := paid (by decide) ⟨by decide, by decide⟩
  rw [first] at points angel demon
  refine ⟨b, c, played, by rw [first], untouched, points, angel, demon⟩

end Battle
end CardBattle
