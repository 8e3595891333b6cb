import CardBattle.Proofs.EchoBound

/-!
# CardBattle.Proofs.Adjacency

Which copies a card echoes that asks for a neighbour. Neighbours are counted in the hand as it is,
from the place that the card had when it began to resolve. The hand may have changed since then:
copies are burnt, and drawn ones come to its right end. So an echo to the right always stays on
that side, and one to the left does as long as fewer copies before it have gone than the distance
asked for. Otherwise the echoed copy stood to the right, or it is the card itself.

* `Anchor.sideOf`, `Scene.lost`: where places of the first hand lie, and what has gone before them.
* `Resolves.sound`: what holds of an echo when it begins.
* `Moment.OnSide`, `neighbors_on_side`: the sides of all echoes of a play.
* `left_echo_from_the_right`: a card that casts its left neighbour, and casts its right one.
-/

namespace CardBattle

open Relation CardBattle.Frame Battle

/-! ## Places -/

/-- The side of an anchor on which a place lies in the hand that is there when the anchor is set.
The former place of a played copy is already taken by its right neighbour. -/
def Anchor.sideOf (a : Anchor) (place : Nat) : Option Side :=
  match a with
  | .played i => some (if place < i then .left else .right)
  | .held i => if place < i then some .left else if i < place then some .right else none

/-- To the right of an anchor nothing can go that brings a copy to the other side. -/
theorem Anchor.sideOf_right {a : Anchor} {distance place first : Nat}
    (h : a.offset? .right distance = some place) (after : place ≤ first) :
    a.sideOf first = some .right := by
  simp only [offset?] at h
  split at h
  · cases h
  · cases a with
    | played i =>
      cases h
      have right : ¬ first < i := by omega
      simp only [sideOf, if_neg right]
    | held i =>
      cases h
      have right : ¬ first < i := by omega
      have right' : i < first := by omega
      simp only [sideOf, if_neg right, if_pos right']

/-- To the left of an anchor stood what has moved fewer places than the distance. -/
theorem Anchor.sideOf_left_iff {a : Anchor} {distance place : Nat}
    (h : a.offset? .left distance = some place) (gone : Nat) :
    a.sideOf (place + gone) = some .left ↔ gone < distance := by
  simp only [offset?] at h
  split at h
  · cases h
  · cases a with
    | played i =>
      simp only [Option.ite_none_right_eq_some, Option.some.injEq] at h
      obtain ⟨le, rfl⟩ := h
      simp only [sideOf, Option.some.injEq, ite_eq_left_iff, reduceCtorEq, imp_false, not_not]
      omega
    | held i =>
      simp only [Option.ite_none_right_eq_some, Option.some.injEq] at h
      obtain ⟨le, rfl⟩ := h
      by_cases left : i - distance + gone < i
      · simp only [sideOf, if_pos left, true_iff]
        omega
      · simp only [sideOf, if_neg left, Option.ite_none_right_eq_some, Option.some.injEq,
          reduceCtorEq, and_false, false_iff]
        omega

/-- Each item that is left stands as many places further to the front as items before it are
gone. By induction on the kept ones. -/
theorem place_of_sublist {α : Type} [DecidableEq α] {kept all : List α} (h : kept.Sublist all)
    (distinct : all.Nodup) {i j : Nat} {a : α} (hi : kept[i]? = some a) (hj : all[j]? = some a) :
    i + (all.take j).countP (· ∉ kept) = j := by
  induction h generalizing i j with
  | slnil => cases hi
  | @cons kept all b sub ih =>
    have fresh : b ∉ all := (List.nodup_cons.mp distinct).1
    have there : a ∈ all := sub.subset (List.mem_of_getElem? hi)
    cases j with
    | zero =>
      cases hj
      exact absurd there fresh
    | succ j =>
      have gone : b ∉ kept := fun hb => fresh (sub.subset hb)
      have rest := ih (List.nodup_cons.mp distinct).2 hi hj
      rw [List.take_succ_cons, List.countP_cons_of_pos (by simpa using gone)]
      omega
  | @cons_cons kept all b sub ih =>
    have fresh : b ∉ all := (List.nodup_cons.mp distinct).1
    cases i with
    | zero =>
      cases hi
      cases j with
      | zero => rfl
      | succ j =>
        have later : all[j]? = some a := hj
        exact absurd (List.mem_of_getElem? later) fresh
    | succ i =>
      have there : a ∈ all := sub.subset (List.mem_of_getElem? hi)
      cases j with
      | zero =>
        cases hj
        exact absurd there fresh
      | succ j =>
        have rest := ih (List.nodup_cons.mp distinct).2 hi hj
        have same : (all.take j).countP (· ∉ b :: kept) = (all.take j).countP (· ∉ kept) := by
          refine List.countP_congr fun c hc => ?_
          have other : c ≠ b := by
            rintro rfl
            exact fresh (List.mem_of_mem_take hc)
          simp [other]
        rw [List.take_succ_cons, List.countP_cons_of_neg (by simp), same]
        omega

namespace Piles

theorem map_fst_handPairs (p : Piles) : p.handPairs.map Prod.fst = p.handIds := by
  simp [handPairs, handIds, CardCopy.pair, Function.comp_def]

/-- The hand after a flow: some of the copies that were there, in their order, and others. -/
theorem Flows.handIds {p p' : Piles} (h : p.Flows p')
    (distinct : (p.all.map CardCopy.id).Nodup) :
    ∃ kept drawn, p'.handIds = kept ++ drawn ∧ kept.Sublist p.handIds ∧
      ∀ id ∈ drawn, id ∉ p.handIds := by
  obtain ⟨kept, drawn, eq, sub, known⟩ := h.hand
  refine ⟨kept.map Prod.fst, drawn.map Prod.fst, ?_, ?_, ?_⟩
  · rw [← map_fst_handPairs, eq, List.map_append]
  · rw [← map_fst_handPairs]
    exact sub.map _
  · intro id hid held
    obtain ⟨x, hx, rfl⟩ := List.mem_map.mp hid
    obtain ⟨c, hc, rfl⟩ := List.mem_map.mp (known hx)
    obtain ⟨d, hd, same⟩ := List.mem_map.mp held
    simp only [all, List.append_assoc, List.map_append] at distinct
    obtain ⟨_, inner, apart⟩ := List.nodup_append.mp distinct
    obtain ⟨_, _, apart'⟩ := List.nodup_append.mp inner
    rcases List.mem_append.mp hc with hc | hc
    · exact apart c.id (List.mem_map_of_mem hc) d.id (by simp [List.mem_map_of_mem hd]) same.symm
    · exact apart' d.id (List.mem_map_of_mem hd) c.id (by simp [List.mem_map_of_mem hc]) same

end Piles

/-! ## Moments -/

namespace Scene

/-- The copy that resolves is where its neighbours are counted from: in play if it has been
played, and otherwise at its place in the hand. -/
def Seated (σ : Scene) : Prop :=
  ∀ source, σ.frame.source = some source →
    match source.anchor with
    | .played _ => σ.began.player.piles.inPlay.map CardCopy.id = some source.copy
    | .held place => σ.began.player.piles.handIds[place]? = some source.copy

/-- How many of the first copies of the hand have left it since the resolution began. -/
def lost (σ : Scene) (b : Battle) (place : Nat) : Nat :=
  (σ.began.player.piles.handIds.take place).countP (· ∉ b.player.piles.handIds)

/-- What a task asks of its scene: a neighbour is called for by the card that resolves. -/
def CallsFor (σ : Scene) : Task → Prop
  | .echo (.castMore side distance) place =>
    ∃ source, σ.frame.source = some source ∧ source.anchor.offset? side distance = some place
  | _ => True

end Scene

structure Moment.Sound (m : Moment) : Prop where
  seated : m.scene.Seated
  since : Acts m.scene.began m.before
  called : m.scene.CallsFor (.echo m.cue m.place)

namespace Frame

/-- A call for an echo comes from a slot that asks for a neighbour of the source. -/
theorem call?_eq_some {frame : Frame} {p : Progress} {s : Slot} {cue : Cue} {place : Nat}
    (h : frame.call? p s = some (cue, place)) :
    ∃ side distance source, cue = .castMore side distance ∧ frame.source = some source ∧
      source.anchor.offset? side distance = some place := by
  simp only [call?] at h
  split at h
  · rename_i side distance _
    split at h
    · cases h
    · rename_i source hs
      obtain ⟨⟨i, c⟩, found, eq⟩ := Option.map_eq_some_iff.mp h
      cases eq
      simp only [Piles.neighbor?] at found
      split at found
      · cases found
      · rename_i j offset
        obtain ⟨d, _, same⟩ := Option.map_eq_some_iff.mp found
        cases same
        exact ⟨side, distance, source, rfl, hs, offset⟩
  · cases h

end Frame

/-- The echoed copy is at its place when its own resolution begins. -/
theorem Moment.seated_opened {m : Moment}
    (held : m.before.player.piles.hand[m.place]? = some m.copy) : m.opened.Seated := by
  intro source eq
  cases eq
  have there := congrArg (Option.map CardCopy.id) held
  rwa [← List.getElem?_map] at there

/-- The moments of a resolution are sound. By induction on the resolution: its scene stays
seated as it was at the beginning, and there are only acts since then. -/
theorem Resolves.sound {σ : Scene} {t : Task} {p q : Progress} {ms : List Moment}
    (h : Resolves σ t p ms q) (seated : σ.Seated) (since : Acts σ.began p.battle)
    (called : σ.CallsFor t) : ∀ m ∈ ms, m.Sound := by
  induction h with
  | done => exact List.forall_mem_nil _
  | @quiet σ s ss p q ms none rest ih =>
    exact ih seated (since.trans (runSlot_deeds σ.frame p s).acts) trivial
  | calls call echo _ ih ih' =>
    obtain ⟨side, distance, source, rfl, eq, offset⟩ := call?_eq_some call
    have first := ih seated since ⟨source, eq, offset⟩
    have second := ih' seated (since.trans echo.passes.acts) trivial
    exact List.forall_mem_append.mpr ⟨first, second⟩
  | spent _ => exact List.forall_mem_nil _
  | refused _ _ => exact List.forall_mem_nil _
  | paid _ pay run _ ih ih' =>
    have paid := since.trans (pay?_acts pay)
    have first := ih seated paid trivial
    have second := ih' seated (paid.trans run.passes.acts) trivial
    exact List.forall_mem_append.mpr ⟨first, second⟩
  | plain _ _ ih => exact ih seated since trivial
  | unrepeated _ _ _ ih => exact ih seated since trivial
  | repeated _ run _ _ _ ih ih' =>
    have first := ih seated since trivial
    have second := ih' seated (since.trans run.passes.acts) trivial
    exact List.forall_mem_append.mpr ⟨first, second⟩
  | tooDeep _ => exact List.forall_mem_nil _
  | absent _ _ => exact List.forall_mem_nil _
  | echo _ held _ ih =>
    refine List.forall_mem_cons.mpr ⟨⟨seated, since, called⟩, ?_⟩
    exact ih (Moment.seated_opened held) .refl trivial
  | unreached => exact List.forall_mem_nil _
  | gone _ _ ih => exact ih seated since trivial
  | reached _ echo _ ih ih' =>
    have first := ih seated since trivial
    have second := ih' seated (since.trans echo.passes.acts) trivial
    exact List.forall_mem_append.mpr ⟨first, second⟩

/-! ## Sides -/

/-- On which side of a card the copy stood that it echoes toward a side. -/
structure Moment.OnSide (m : Moment) (source : Source) (side : Side) (distance : Nat) : Prop where
  /-- A copy of the first hand stood on the side asked for, unless too many before it are gone. -/
  kept : ∀ place, m.scene.began.player.piles.handIds[place]? = some m.copy.id →
    (side = .left → m.scene.lost m.before place < distance) →
      source.anchor.sideOf place = some side ∧ m.copy.id ≠ source.copy
  /-- With too many gone it did not. -/
  strayed : ∀ place, m.scene.began.player.piles.handIds[place]? = some m.copy.id →
    side = .left → distance ≤ m.scene.lost m.before place →
      source.anchor.sideOf place ≠ some side
  /-- A copy that has come to the hand since then is not the card itself. -/
  drawn : m.copy.id ∉ m.scene.began.player.piles.handIds → m.copy.id ≠ source.copy

namespace Moment

variable {m : Moment} {source : Source} {side : Side} {distance : Nat}

/-- The echoed copy stands as many places further to the left as copies before it are gone. -/
theorem place_add_lost (since : Acts m.scene.began m.before)
    (distinct : (m.scene.began.player.piles.all.map CardCopy.id).Nodup)
    (held : m.before.player.piles.hand[m.place]? = some m.copy) {place : Nat}
    (first : m.scene.began.player.piles.handIds[place]? = some m.copy.id) :
    m.place + m.scene.lost m.before place = place := by
  obtain ⟨kept, drawn, eq, sub, fresh⟩ := since.lasting.flows.handIds distinct
  have there : m.before.player.piles.handIds[m.place]? = some m.copy.id := by
    rw [Piles.handIds, List.getElem?_map, held]
    rfl
  have old : m.copy.id ∈ m.scene.began.player.piles.handIds := List.mem_of_getElem? first
  -- A copy that stood in the first hand has not been drawn since, so it is among the kept ones.
  have inKept : kept[m.place]? = some m.copy.id := by
    rw [eq, List.getElem?_append] at there
    split at there
    · exact there
    · exact absurd old (fresh _ (List.mem_of_getElem? there))
  have hand : m.scene.began.player.piles.handIds.Nodup :=
    distinct.sublist ((m.scene.began.player.piles.pile_sublist_all .hand).map _)
  have same : m.scene.lost m.before place =
      (m.scene.began.player.piles.handIds.take place).countP (· ∉ kept) := by
    refine List.countP_congr fun id hid => ?_
    have notDrawn : id ∉ drawn := fun drew => fresh id drew (List.mem_of_mem_take hid)
    simp [eq, notDrawn]
  rw [same]
  exact place_of_sublist sub hand inKept first

theorem Sound.onSide (h : m.Sound)
    (distinct : (m.scene.began.player.piles.all.map CardCopy.id).Nodup)
    (held : m.before.player.piles.hand[m.place]? = some m.copy)
    (cue : m.cue = .castMore side distance) :
    ∃ source, m.scene.frame.source = some source ∧ m.OnSide source side distance := by
  have called := h.called
  rw [cue] at called
  obtain ⟨source, eq, offset⟩ := called
  have seated := h.seated source eq
  have there : m.copy.id ∈ m.before.player.piles.handIds :=
    List.mem_map_of_mem (List.mem_of_getElem? held)
  have hand : m.scene.began.player.piles.handIds.Nodup :=
    distinct.sublist ((m.scene.began.player.piles.pile_sublist_all .hand).map _)
  refine ⟨source, eq, ?_⟩
  constructor
  case kept =>
    intro place first few
    have moved := place_add_lost h.since distinct held first
    have onSide : source.anchor.sideOf place = some side := by
      cases side with
      | right => exact Anchor.sideOf_right offset (by omega)
      | left =>
        rw [← moved]
        exact (Anchor.sideOf_left_iff offset _).mpr (few rfl)
    refine ⟨onSide, ?_⟩
    rintro same
    cases anchor : source.anchor with
    | played i =>
      rw [anchor] at seated
      exact h.since.lasting.not_mem_handIds distinct seated (same ▸ there)
    | held i =>
      rw [anchor] at seated onSide
      -- The card itself would stand at its anchor, which is on neither side.
      have atOnce : i = place := (List.getElem?_inj
        (List.getElem?_eq_some_iff.mp seated).1 hand).mp (by rw [seated, first, same])
      simp [Anchor.sideOf, atOnce] at onSide
  case strayed =>
    rintro place first rfl many
    have moved := place_add_lost h.since distinct held first
    rw [← moved, Ne, Anchor.sideOf_left_iff offset, Nat.not_lt]
    exact many
  case drawn =>
    rintro fresh same
    cases anchor : source.anchor with
    | played i =>
      rw [anchor] at seated
      exact h.since.lasting.not_mem_handIds distinct seated (same ▸ there)
    | held i =>
      rw [anchor] at seated
      exact fresh (same ▸ List.mem_of_getElem? seated)

end Moment

/-! ## Plays -/

namespace Battle

variable {b b' : Battle} {copy : Nat} {target : Option FighterId} {ms : List Moment}

theorem CopyResolves.sound {c : PlayedCopy} (h : CopyResolves c target b ms b')
    (inPlay : b.player.piles.inPlay.map CardCopy.id = some c.copy) : ∀ m ∈ ms, m.Sound := by
  obtain @⟨p, q, ms, ms₁, card, copies⟩ := h
  have seated : (c.scene target b.takeSwift.2).Seated := by
    intro source eq
    cases eq
    exact (takeSwift_deeds b).acts.lasting.inPlay_id.trans inPlay
  have shifted := card.passes.acts.trans (applyShifts_deeds c.card p.battle).acts
  have first := card.sound seated .refl trivial
  have second := copies.sound seated shifted trivial
  exact List.forall_mem_append.mpr ⟨first, second⟩

theorem PlayResolves.sound (h : b.PlayResolves copy target ms b') : ∀ m ∈ ms, m.Sound := by
  obtain @⟨place, c, piles, ms, b₁, begun, resolved⟩ := h
  obtain ⟨_, _, eq⟩ := Piles.beginPlay?_spec begun
  refine resolved.sound ?_
  rw [piles_opened, eq]
  rfl

/-- In a play every copy that is echoed toward a side stood on it, unless it is to the left and
too many copies before it are gone. -/
theorem neighbors_on_side (played : b.play copy target = .ok b')
    (distinct : (b.player.piles.all.map CardCopy.id).Nodup) :
    (∃ ms, b.PlayResolves copy target ms b') ∧
      ∀ ms, b.PlayResolves copy target ms b' →
        ∀ m ∈ ms, ∀ side distance, m.cue = .castMore side distance →
          ∃ source, m.scene.frame.source = some source ∧ m.OnSide source side distance := by
  constructor
  · obtain ⟨ms, b₁, run⟩ := exists_playResolves played
    exact ⟨ms, run.eq played ▸ run⟩
  · intro ms run m hm side distance cue
    have sound := run.sound m hm
    have began := sound.since.lasting.nodup_iff.mp (run.others distinct m hm).1
    exact sound.onSide began (run.held m hm) cue

/-! ## An echo from the other side -/

/-- A card that burns a copy of the hand and casts its left neighbour, between two others. -/
def rashHand : List Card :=
  [ { id := "jab", name := "Jab", cost := 1
      description := "Deal 1 damage to all enemies."
      slots := .ofList [Sample.slot .areaDamage "1"] },
    { id := "rash", name := "Rash", cost := 1
      description := "Burn a card of the hand. Cast the card to the left again."
      slots := .ofList [Sample.slot .burnHand "1", Sample.slot .castMore "Left,1"] },
    { id := "slash", name := "Slash", cost := 1
      description := "Deal 7 damage to all enemies."
      slots := .ofList [Sample.slot .areaDamage "7"] } ]

theorem exists_play_rash : ∃ b, (dealt rashHand 7).play 1 none = .ok b :=
  exists_play_dealt rashHand 7 1 rfl (by decide)

theorem neighbors_on_side_rash :
    ∃ b, (dealt rashHand 7).play 1 none = .ok b ∧
      ((dealt rashHand 7).player.piles.all.map CardCopy.id).Nodup ∧
      ∃ ms, (dealt rashHand 7).PlayResolves 1 none ms b ∧
        ∀ m ∈ ms, ∀ side distance, m.cue = .castMore side distance →
          ∃ source, m.scene.frame.source = some source ∧ m.OnSide source side distance := by
  have distinct : ((dealt rashHand 7).player.piles.all.map CardCopy.id).Nodup := by decide
  obtain ⟨b, played⟩ := exists_play_rash
  obtain ⟨⟨ms, run⟩, sides⟩ := neighbors_on_side played distinct
  exact ⟨b, played, distinct, ms, run, sides ms run⟩

def rashOpened : Battle :=
  let b := dealt rashHand 7
  let rash : CardCopy := { id := 1, card := rashHand[1] }
  b.opened rash
    { b.player.piles with
      hand := b.player.piles.hand.eraseIdx 1
      inPlay := some rash
      discardPile := [] } none

def rashScene : Scene :=
  PlayedCopy.scene { copy := 1, card := rashHand[1], place := 1 } none rashOpened.takeSwift.2

def rashBegun : Progress := { battle := rashOpened.takeSwift.2, killed := false }

def rashBurnt : Progress := rashScene.frame.runSlot mute rashBegun (Sample.slot .burnHand "1")

/-- With this seed the jab is burnt. The slash, which stood to the right, takes its place. -/
theorem rashBurnt_spec :
    rashScene.frame.call? rashBegun (Sample.slot .burnHand "1") = none ∧
      rashBurnt.battle.player.piles.handIds = [2] ∧
      rashScene.frame.effect? rashBurnt (Sample.slot .castMore "Left,1") =
        some (.castMore .left 1) := by
  decide +kernel

/-- The rash card casts its left neighbour, and it is the slash from its right that is echoed. -/
theorem left_echo_from_the_right :
    ∃ b ms, (dealt rashHand 7).play 1 none = .ok b ∧
      ((dealt rashHand 7).player.piles.all.map CardCopy.id).Nodup ∧
      (dealt rashHand 7).PlayResolves 1 none ms b ∧
      ∃ m ∈ ms, m.cue = .castMore .left 1 ∧
        m.scene.frame.source = some { copy := 1, anchor := .played 1 } ∧
        m.scene.began.player.piles.handIds[1]? = some m.copy.id ∧
        Anchor.sideOf (.played 1) 1 = some .right := by
  obtain ⟨b, played⟩ := exists_play_rash
  obtain ⟨quiet, hand, effect⟩ := rashBurnt_spec
  have there : (rashBurnt.battle.player.piles.hand[0]?).map CardCopy.id = some 2 := by
    rw [← List.getElem?_map]
    exact congrArg (·[0]?) hand
  obtain ⟨d, held, id⟩ := Option.map_eq_some_iff.mp there
  have source : rashScene.frame.source = some { copy := 1, anchor := .played 1 } := rfl
  have call : rashScene.frame.call? rashBurnt (Sample.slot .castMore "Left,1") =
      some (.castMore .left 1, 0) := by
    simp [call?, effect, source, Piles.neighbor?, Anchor.offset?, held]
  have stood : rashScene.began.player.piles.handIds[1]? = some 2 := by decide
  let m : Moment := ⟨rashScene, .castMore .left 1, rashBurnt.battle, 0, d⟩
  have settings : rashBurnt.battle.settings = rashBegun.battle.settings :=
    (runSlot_deeds _ _ _).acts.lasting.settings
  have shallow : rashScene.depth < rashBurnt.battle.settings.maxChainDepth := by
    rw [settings]
    decide
  obtain ⟨ms, p, echoed⟩ := Resolves.exists_resolves m.opened .card
    { rashBurnt with battle := m.told } trivial
  have slots : Resolves rashScene (.slots rashScene.frame.plainSlots) rashBegun (m :: ms ++ []) p :=
    .quiet quiet (.calls call (.echo shallow held echoed) .done)
  have card : Resolves rashScene .card rashBegun (m :: ms ++ []) p := .plain rfl slots
  obtain ⟨ms₁, q, copies⟩ := Resolves.exists_resolves rashScene
    (.copies (reachedCopies { copy := 1, card := rashHand[1], place := 1 } rashOpened.takeSwift.1
      (applyShifts rashHand[1] p.battle)))
    (p.map (applyShifts rashHand[1])) rfl
  have run : (dealt rashHand 7).PlayResolves 1 none (m :: ms ++ [] ++ ms₁) q.battle.finishPlay :=
    .intro rfl (.intro card copies)
  refine ⟨b, _, played, by decide, run.eq played ▸ run, m, by simp, rfl, source, ?_, rfl⟩
  rw [id]
  exact stood

end Battle
end CardBattle
