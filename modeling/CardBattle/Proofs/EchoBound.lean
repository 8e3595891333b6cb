import CardBattle.Proofs.Echoing
import CardBattle.Proofs.Refusal
import CardBattle.Content.Sample
import Mathlib.Algebra.Ring.GeomSum
import Mathlib.Data.List.MinMax

/-!
# CardBattle.Proofs.EchoBound

How many echoes a play can bring. A resolution is a tree: a card branches at its slots, again for
every payment of a slot that repeats, and the settings bound its height. So the echoes of a play
are bounded by a geometric sum, however the cards point at each other.

* `Slot.repeats`, `Piles.branching`: how often slots can be repeated, and how many echoes the
  run of one card can call for.
* `Resolves.length_le`: the bound for every task, by induction on the resolution.
* `Battle.EchoesSettled`, `echoes_settled`: what is certain of the echoes of a play.
-/

namespace CardBattle

open Relation CardBattle.Frame Battle

/-- How often a slot lets the slots behind it run: as often as its budget covers its cost, if it
can be read as a repetition for a positive cost. -/
def Slot.repeats (s : Slot) : Nat :=
  match Effect.read s.kind s.value with
  | .ok (some (.spendRepeat _ cost budget)) => repeatBound cost budget
  | _ => 0

namespace Piles

/-- The most repetitions that a slot of a copy in the piles allows. Destroyed copies do not
count. -/
def mostRepeats (p : Piles) : Nat :=
  ((p.live.flatMap fun c => c.card.slots.items).map Slot.repeats).foldr max 0

/-- The most echoes that the run of one card can call for. -/
def branching (p : Piles) : Nat := Settings.maxSlots * max 1 p.mostRepeats

end Piles

/-- The most echoes that a play can bring. -/
def Battle.echoLimit (b : Battle) : Nat :=
  (b.player.piles.branching + 2) *
    ∑ i ∈ Finset.range b.settings.maxChainDepth, b.player.piles.branching ^ i

/-! ## Repetitions -/

/-- Slots that are few and repeat at most `n` times. -/
structure Modest (n : Nat) (ss : List Slot) : Prop where
  length : ss.length ≤ Settings.maxSlots
  repeats : ∀ s ∈ ss, s.repeats ≤ n

namespace Piles

/-- The slots of all copies that are not destroyed repeat at most `n` times. -/
def Modest (n : Nat) (p : Piles) : Prop :=
  ∀ x ∈ p.live.map CardCopy.pair, ∀ s ∈ x.2.slots.items, s.repeats ≤ n

theorem modest_mostRepeats (p : Piles) : p.Modest p.mostRepeats := by
  intro x hx s hs
  obtain ⟨c, hc, rfl⟩ := List.mem_map.mp hx
  have member : s.repeats ∈ (p.live.flatMap fun c => c.card.slots.items).map Slot.repeats :=
    List.mem_map_of_mem (List.mem_flatMap.mpr ⟨c, hc, hs⟩)
  exact List.le_max_of_le' 0 member (Nat.le_refl _)

theorem Modest.mono {n : Nat} {p p' : Piles} (h : p.Modest n)
    (fewer : p'.live.map CardCopy.pair ⊆ p.live.map CardCopy.pair) : p'.Modest n := by
  intro x hx
  exact h x (fewer hx)

theorem Modest.held {n : Nat} {p : Piles} {place : Nat} {c : CardCopy} (h : p.Modest n)
    (held : p.hand[place]? = some c) : CardBattle.Modest n c.card.slots.items := by
  have there : c.pair ∈ p.live.map CardCopy.pair :=
    mem_live_iff.mpr (.inl (List.mem_map_of_mem (List.mem_of_getElem? held)))
  exact ⟨c.card.slots.length_le, h c.pair there⟩

/-- A copy that goes into play comes from the hand, and one that it finds there is discarded. -/
theorem live_beginPlay? {p p' : Piles} {id place : Nat} {c : CardCopy}
    (h : p.beginPlay? id = some (place, c, p')) :
    p'.live.map CardCopy.pair ⊆ p.live.map CardCopy.pair := by
  obtain ⟨held, _, eq⟩ := beginPlay?_spec h
  refine List.map_subset _ ?_
  intro d hd
  rw [eq] at hd
  simp only [live, List.mem_append, Option.mem_toList] at hd ⊢
  obtain ((hd | hd) | hd | hd) | hd := hd
  · exact .inl (.inl (.inl hd))
  · exact .inl (.inl (.inr (List.mem_of_mem_eraseIdx hd)))
  · exact .inl (.inr hd)
  · exact .inr hd
  · cases hd
    exact .inl (.inl (.inr (List.mem_of_getElem? held)))

end Piles

namespace Frame

theorem repeats_of_effect? {frame : Frame} {p : Progress} {s : Slot} {meter : Meter}
    {cost budget : Int} (h : frame.effect? p s = some (.spendRepeat meter cost budget)) :
    s.repeats = repeatBound cost budget := by
  rw [Slot.repeats, read_of_effect? h]

theorem slots_eq {frame : Frame} {s : Slot} {ss : List Slot}
    (h : frame.repeatSlot? = some (s, ss)) : frame.slots = frame.plainSlots ++ s :: ss := by
  have parts := List.takeWhile_append_dropWhile (p := fun s => !repeats s) (l := frame.slots)
  simp only [repeatSlot?] at h
  split at h
  · cases h
  · rename_i first rest eq
    cases h
    rw [plainSlots, ← eq, parts]

theorem length_plainSlots_le (frame : Frame) : frame.plainSlots.length ≤ frame.slots.length :=
  (List.takeWhile_sublist _).length_le

end Frame

/-! ## The bound -/

/-- The most echoes of a task, if one echo brings at most `n` and a card branches at most `w`
times. -/
def Task.most (w n : Nat) : Task → Nat
  | .slots ss => ss.length * n
  | .payments ss _ cost remaining => repeatBound cost remaining * (ss.length * n)
  | .card => w * n
  | .echo _ _ => n
  | .copies ids => ids.length * n

/-- Slots before a repeating slot and slots behind it, as often as these are run, are no more
than all slots are if each of them is run so often. -/
theorem branches_le {plain behind times r : Nat} (few : plain + (behind + 1) ≤ Settings.maxSlots)
    (bound : times ≤ r) : plain + times * behind ≤ Settings.maxSlots * max 1 r := by
  have first : plain * 1 ≤ plain * max 1 r := Nat.mul_le_mul_left _ (by omega)
  have second : times * behind ≤ max 1 r * behind := Nat.mul_le_mul_right _ (by omega)
  calc plain + times * behind
      ≤ plain * max 1 r + behind * max 1 r := by
        rw [Nat.mul_comm behind]
        omega
    _ = (plain + behind) * max 1 r := (Nat.add_mul _ _ _).symm
    _ ≤ Settings.maxSlots * max 1 r := Nat.mul_le_mul_right _ (by omega)

/-- What a resolution has to look through: modest slots now, and modest copies to echo. -/
structure Scene.Modest (r : Nat) (σ : Scene) (b : Battle) : Prop where
  frame : CardBattle.Modest r σ.frame.slots
  piles : b.player.piles.Modest r

theorem Scene.Modest.later {r : Nat} {σ : Scene} {b b' : Battle} (h : σ.Modest r b)
    (acts : Acts b b') : σ.Modest r b' :=
  ⟨h.frame, h.piles.mono acts.lasting.live⟩

/-- The echoes of a resolution with so many links left of the chain. -/
theorem Resolves.length_le {r : Nat} {σ : Scene} {t : Task} {p q : Progress} {ms : List Moment}
    (h : Resolves σ t p ms q) (admits : σ.Admits t) (modest : σ.Modest r p.battle) :
    ms.length ≤ t.most (Settings.maxSlots * max 1 r)
      (∑ i ∈ Finset.range (σ.links p.battle), (Settings.maxSlots * max 1 r) ^ i) := by
  have wide : Settings.maxSlots ≤ Settings.maxSlots * max 1 r :=
    Nat.le_mul_of_pos_right _ (by omega)
  generalize hw : Settings.maxSlots * max 1 r = w at wide ⊢
  induction h with
  | done => exact Nat.zero_le _
  | @quiet σ s ss p q ms none rest ih =>
    have acts := (runSlot_deeds σ.frame p s).acts
    have bound := ih trivial (modest.later acts)
    rw [Scene.links_later acts] at bound
    simp only [Task.most, List.length_cons, Nat.succ_mul] at bound ⊢
    omega
  | @calls σ s ss p p₁ q ms ms₁ cue place call echo rest ih ih' =>
    have acts := echo.passes.acts
    have first := ih trivial modest
    have second := ih' trivial (modest.later acts)
    rw [Scene.links_later acts] at second
    simp only [Task.most, List.length_append, List.length_cons, Nat.succ_mul] at first second ⊢
    omega
  | spent _ => exact Nat.zero_le _
  | refused _ _ => exact Nat.zero_le _
  | @paid σ ss meter cost remaining p p₁ q b ms ms₁ covered pay run rest ih ih' =>
    have acts := pay?_acts pay
    have first := ih trivial (modest.later acts)
    have second := ih' admits (modest.later (acts.trans run.passes.acts))
    rw [Scene.links_later acts] at first
    rw [Scene.links_later (acts.trans run.passes.acts)] at second
    simp only [Task.most, List.length_append, repeatBound_of_le admits covered, Nat.succ_mul]
      at first second ⊢
    omega
  | @plain σ p q ms none run ih =>
    have bound := ih trivial modest
    have few : σ.frame.plainSlots.length ≤ w :=
      (σ.frame.length_plainSlots_le.trans modest.frame.length).trans wide
    exact bound.trans (Nat.mul_le_mul_right _ few)
  | @unrepeated σ s ss p q ms slot run idle ih =>
    have bound := ih trivial modest
    have few : σ.frame.plainSlots.length ≤ w :=
      (σ.frame.length_plainSlots_le.trans modest.frame.length).trans wide
    exact bound.trans (Nat.mul_le_mul_right _ few)
  | @repeated σ s ss p p₁ q ms ms₁ meter cost budget slot run effect pos rest ih ih' =>
    have acts := run.passes.acts
    have first := ih trivial modest
    have second := ih' pos (modest.later acts)
    rw [Scene.links_later acts] at second
    have parts := slots_eq slot
    have few := modest.frame.length
    rw [parts, List.length_append, List.length_cons] at few
    have often := modest.frame.repeats s (by simp [parts])
    rw [repeats_of_effect? effect] at often
    -- The slot that repeats echoes nothing itself, so it makes room for a branch.
    have branches := branches_le few often
    rw [hw] at branches
    simp only [Task.most, List.length_append] at first second ⊢
    calc ms.length + ms₁.length
        ≤ (σ.frame.plainSlots.length + repeatBound cost budget * ss.length) *
            ∑ i ∈ Finset.range (σ.links p.battle), w ^ i := by
          rw [Nat.add_mul, Nat.mul_assoc]
          omega
      _ ≤ _ := Nat.mul_le_mul_right _ branches
  | tooDeep _ => exact Nat.zero_le _
  | absent _ _ => exact Nat.zero_le _
  | @echo σ cue place c p q ms shallow held card ih =>
    have bound := ih trivial ⟨modest.piles.held held, modest.piles⟩
    have left : σ.links p.battle =
        p.battle.settings.maxChainDepth - (σ.depth + 1) + 1 := by
      rw [Scene.links]
      omega
    rw [left]
    -- One echo for this copy, and what its card brings with one link less.
    simp only [Task.most, geom_sum_succ, List.length_cons]
    exact Nat.succ_le_succ bound
  | unreached => exact Nat.zero_le _
  | @gone σ id ids p q ms none rest ih =>
    have bound := ih admits modest
    simp only [Task.most, List.length_cons, Nat.succ_mul] at bound ⊢
    omega
  | @reached σ id place ids p p₁ q ms ms₁ there echo rest ih ih' =>
    have acts := echo.passes.acts
    have first := ih trivial modest
    have second := ih' admits (modest.later acts)
    rw [Scene.links_later acts] at second
    simp only [Task.most, List.length_append, List.length_cons, Nat.succ_mul] at first second ⊢
    omega

/-! ## Plays -/

namespace Battle

variable {b b' : Battle} {c : PlayedCopy} {target : Option FighterId} {ms : List Moment}

theorem length_reachedCopies (c : PlayedCopy) (reach : Option SwiftReach) (b : Battle) :
    (reachedCopies c reach b).length ≤ 2 := by
  cases reach with
  | none => exact Nat.zero_le _
  | some reach => exact List.length_filterMap_le _ _

theorem CopyResolves.length_le {r : Nat} (h : CopyResolves c target b ms b')
    (slots : Modest r c.card.slots.items) (piles : b.player.piles.Modest r) :
    ms.length ≤ (Settings.maxSlots * max 1 r + 2) *
      ∑ i ∈ Finset.range b.settings.maxChainDepth, (Settings.maxSlots * max 1 r) ^ i := by
  obtain @⟨p, q, ms, ms₁, card, copies⟩ := h
  have swift := (takeSwift_deeds b).acts
  have shifted := card.passes.acts.trans (applyShifts_deeds c.card p.battle).acts
  have modest : (c.scene target b.takeSwift.2).Modest r b.takeSwift.2 :=
    ⟨slots, piles.mono swift.lasting.live⟩
  have links : (c.scene target b.takeSwift.2).links b.takeSwift.2 = b.settings.maxChainDepth := by
    rw [Scene.links, swift.lasting.settings]
    rfl
  have first := card.length_le trivial modest
  have second := copies.length_le rfl (modest.later shifted)
  have links' : (c.scene target b.takeSwift.2).links (p.map (applyShifts c.card)).battle =
      b.settings.maxChainDepth := (Scene.links_later shifted).trans links
  rw [links] at first
  rw [links'] at second
  simp only [Task.most] at first second
  -- Swift reaches one copy on each side at most. Its echoes start with all links of the chain.
  have two := length_reachedCopies c b.takeSwift.1 (applyShifts c.card p.battle)
  have reached := second.trans (Nat.mul_le_mul_right _ two)
  rw [List.length_append, Nat.add_mul]
  exact Nat.add_le_add first reached

/-- `b'` has told more than `b`, but no echoes. -/
def Remains (b b' : Battle) : Prop := b.events.toList <+: b'.events.toList ∧ b'.echoes = b.echoes

theorem remains_opened (b : Battle) (c : CardCopy) (piles : Piles) (target : Option FighterId) :
    b.Remains (b.opened c piles target) := by
  constructor
  · simp only [opened, emitActionPoints, emit, Array.toList_push, List.append_assoc]
    exact List.prefix_append _ _
  · rw [opened, echoes_emit, emitActionPoints, echoes_emit]
    simp [Event.echoed?, echoes]

theorem remains_checkEnd (b : Battle) : b.Remains b.checkEnd.2 := by
  simp only [checkEnd]
  split
  · exact ⟨List.prefix_refl _, rfl⟩
  · split
    · exact ⟨List.prefix_refl _, rfl⟩
    · rename_i o _
      constructor
      · exact b.events_ended o ▸ List.prefix_append _ _
      · have told := b.events_ended o
        rw [ended] at told
        rw [echoes, told]
        simp [Event.echoed?, echoes]

theorem remains_finishPlay (b : Battle) : b.Remains b.finishPlay := by
  simp only [finishPlay]
  split
  · exact b.remains_checkEnd
  · rename_i id piles _
    obtain ⟨log, same⟩ := remains_checkEnd
      ({ b with player := { b.player with piles } }.emit (.cardsDiscarded [id]))
    constructor
    · refine List.IsPrefix.trans ?_ log
      simp [emit]
    · rw [same, echoes_emit]
      simp [Event.echoed?, echoes]

/-- What is certain of the echoes of a play that leads from `b` to `b'`: it ends, it ends there
only, and there are no more echoes than the limit allows. If all numbers are different, the played
copy is not echoed, and each echoed copy is in the hand at that moment. -/
structure EchoesSettled (b : Battle) (copy : Nat) (target : Option FighterId) (b' : Battle) :
    Prop where
  ends : ∃ ms, b.PlayResolves copy target ms b'
  only : ∀ ms b₁, b.PlayResolves copy target ms b₁ → b₁ = b'
  log : b.events.toList <+: b'.events.toList
  told : ∀ ms b₁, b.PlayResolves copy target ms b₁ →
    b'.echoes = b.echoes ++ ms.map Moment.echoed
  few : b'.echoes.length ≤ b.echoes.length + b.echoLimit
  others : (b.player.piles.all.map CardCopy.id).Nodup → ∀ ms b₁,
    b.PlayResolves copy target ms b₁ → ∀ m ∈ ms, m.copy.id ≠ copy ∧
      m.before.player.piles.hand[m.place]? = some m.copy ∧
      m.told.events.toList <+: b'.events.toList

namespace PlayResolves

variable {copy : Nat}

/-- The numbers of all copies stay different, and the played copy stays out of the hand. -/
theorem others (h : b.PlayResolves copy target ms b')
    (distinct : (b.player.piles.all.map CardCopy.id).Nodup) :
    ∀ m ∈ ms, (m.before.player.piles.all.map CardCopy.id).Nodup ∧
      copy ∉ m.before.player.piles.handIds := by
  obtain @⟨place, c, piles, ms, b₁, begun, resolved⟩ := h
  intro m hm
  have lasting := (resolved.passes.moments m hm).2.1.lasting
  obtain ⟨_, id, eq⟩ := Piles.beginPlay?_spec begun
  have perm := (Piles.pairs_beginPlay? begun).map Prod.fst
  rw [Piles.map_fst_pairs, Piles.map_fst_pairs] at perm
  have opened : ((b.opened c piles target).player.piles.all.map CardCopy.id).Nodup := by
    rw [piles_opened]
    exact perm.nodup_iff.mpr distinct
  have inPlay : (b.opened c piles target).player.piles.inPlay.map CardCopy.id = some copy := by
    rw [piles_opened, eq, ← id]
    rfl
  exact ⟨lasting.nodup_iff.mpr opened, lasting.not_mem_handIds opened inPlay⟩

theorem log (h : b.PlayResolves copy target ms b') :
    b.events.toList <+: b'.events.toList ∧ b'.echoes = b.echoes ++ ms.map Moment.echoed ∧
      ∀ m ∈ ms, m.told.events.toList <+: b'.events.toList := by
  obtain @⟨place, c, piles, ms, b₁, begun, resolved⟩ := h
  obtain ⟨log, same⟩ := b.remains_opened c piles target
  obtain ⟨log', same'⟩ := b₁.remains_finishPlay
  have passes := resolved.passes
  refine ⟨log.trans (passes.acts.lasting.told.trans log'), ?_, ?_⟩
  · rw [same', passes.echoes, same]
  · intro m hm
    exact (passes.moments m hm).2.2.lasting.told.trans log'

theorem held (h : b.PlayResolves copy target ms b') :
    ∀ m ∈ ms, m.before.player.piles.hand[m.place]? = some m.copy := by
  obtain @⟨place, c, piles, ms, b₁, begun, resolved⟩ := h
  intro m hm
  exact (resolved.passes.moments m hm).1

theorem length_le (h : b.PlayResolves copy target ms b') : ms.length ≤ b.echoLimit := by
  obtain @⟨place, c, piles, ms, b₁, begun, resolved⟩ := h
  have modest := b.player.piles.modest_mostRepeats
  have held := (Piles.beginPlay?_spec begun).1
  refine resolved.length_le (modest.held held) ?_
  rw [piles_opened]
  exact modest.mono (Piles.live_beginPlay? begun)

end PlayResolves

/-- However cards point at each other, an accepted play comes to its end within the limit. -/
theorem echoes_settled {copy : Nat} (h : b.play copy target = .ok b') :
    b.EchoesSettled copy target b' := by
  obtain ⟨ms, b₁, run⟩ := exists_playResolves h
  have only : ∀ ms b₁, b.PlayResolves copy target ms b₁ → b₁ = b' := fun _ _ => PlayResolves.eq h
  rw [only ms b₁ run] at run
  obtain ⟨log, told, _⟩ := run.log
  constructor
  case ends => exact ⟨ms, run⟩
  case only => exact only
  case log => exact log
  case told =>
    intro ms₁ b₁ run₁
    have same := only ms₁ b₁ run₁
    rw [← same]
    exact run₁.log.2.1
  case few =>
    rw [told, List.length_append, List.length_map]
    exact Nat.add_le_add_left run.length_le _
  case others =>
    intro distinct ms₁ b₁ run₁ m hm
    rw [only ms₁ b₁ run₁] at run₁
    have held := run₁.held m hm
    refine ⟨?_, held, run₁.log.2.2 m hm⟩
    rintro rfl
    exact (run₁.others distinct m hm).2 (List.mem_map_of_mem (List.mem_of_getElem? held))

/-- The player's turn with a copy of each of the cards in the hand, against a single enemy. -/
def dealt (cards : List Card) (seed : UInt64) : Battle :=
  { settings := {}
    phase := .playerTurn
    player :=
      { Player.fresh 100 { hand := Piles.copies 0 cards, nextId := cards.length } {} with
        actionPoints := 3 }
    enemies := [Enemy.fresh (.enemy 0) { id := "dummy", name := "Dummy", hp := 50 } none []]
    chance := .ofSeed seed
    pool := [] }

theorem exists_play_dealt (cards : List Card) (seed : UInt64) (copy : Nat) {c : CardCopy}
    (held : (dealt cards seed).player.piles.held? copy = some c) (cost : c.cost ≤ 3) :
    ∃ b, (dealt cards seed).play copy none = .ok b := by
  have free : (dealt cards seed).objection? copy none = none :=
    objection?_eq_none_iff.mpr ⟨rfl, ⟨c, held, cost⟩, nofun⟩
  obtain ⟨b, _, played⟩ := attemptPlay_accepted free
  exact ⟨b, played⟩

/-- The echo of the sample cards, in a hand of all of them. -/
theorem echoes_settled_sample :
    ∃ b, (dealt Sample.cards 1).play 7 none = .ok b ∧
      (dealt Sample.cards 1).EchoesSettled 7 none b := by
  obtain ⟨b, played⟩ := exists_play_dealt Sample.cards 1 7 rfl (by decide)
  exact ⟨b, played, echoes_settled played⟩

end Battle
end CardBattle
