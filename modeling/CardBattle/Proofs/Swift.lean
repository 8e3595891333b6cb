import CardBattle.Proofs.Adjacency
import CardBattle.Proofs.Keeping
import CardBattle.Proofs.Unspent

/-!
# CardBattle.Proofs.Swift

Swift in a play. It is used up before the first slot of the card runs. When the card is done and
the gauges have shifted, the copies are chosen that stand where it reaches; then the left one is
echoed and the right one, each if it still is in the hand. A swift that arrives on the way waits
for the next play.

* `Battle.takeSwift_of_swift?`, `Battle.takeSwift_of_none`: what is used up.
* `Battle.reachedOn?`, `SwiftEcho`: the copy on one side, and what becomes of it.
* `Resolves.cue_ne_swift`: no echo within a card is one by swift.
* `Visit.exists_swift?`, `Battle.exists_swift?_finishPlay`: a swift that a slot applies is active,
  and still is at the end of the play.
* `Battle.SwiftSettled`, `Battle.swift_settled`: what is certain of a whole play.
-/

namespace CardBattle

open CardBattle.Frame Ledger

namespace Battle

variable {b : Battle} {r : SwiftReach}

/-! ## Using swift up -/

theorem takeSwift_of_none (h : b.swift? .player = none) : b.takeSwift = (none, b) := by
  have nothing : b.player.fighter.buffs.takeSwift.1 = none :=
    (fst_takeSwiftFrom b.player.fighter.buffs.entries).trans h
  simp only [takeSwift]
  split
  · rfl
  · rename_i reach buffs taken
    rw [taken] at nothing
    cases nothing

/-- An active swift of the player leaves the ledger, with the inert entries. -/
theorem takeSwift_of_swift? (distinct : b.Distinct) (h : b.swift? .player = some r) :
    b.takeSwift.1 = some r ∧
      b.takeSwift.2.player.fighter.buffs.entries =
        b.player.fighter.buffs.entries.filter fun e => e.isActive && e.kind != .swift := by
  have own : b.player.fighter.buffs.Distinct := distinct .player _ rfl
  obtain ⟨reach, entries⟩ := Ledger.takeSwift_of_swift? own h
  simp only [takeSwift]
  split
  · rename_i buffs taken
    rw [taken] at reach
    cases reach
  · rename_i reach' buffs taken
    rw [taken] at reach entries
    simp only [emitExpired, emitAll_eq]
    exact ⟨reach, entries⟩

theorem takeSwift_fst (distinct : b.Distinct) : b.takeSwift.1 = b.swift? .player := by
  cases found : b.swift? .player with
  | none => rw [takeSwift_of_none found]
  | some r => exact (takeSwift_of_swift? distinct found).1

theorem distinct_takeSwift (distinct : b.Distinct) : b.takeSwift.2.Distinct := by
  have own : b.player.fighter.buffs.Distinct := distinct .player _ rfl
  simp only [takeSwift]
  split
  · exact distinct
  · rename_i reach buffs taken
    have used : buffs.Distinct := by
      have faces := faces_takeSwiftFrom b.player.fighter.buffs.entries
      have after : b.player.fighter.buffs.takeSwift.2.Distinct := distinct_of_faces faces own
      rwa [taken] at after
    intro id f hf
    rw [emitExpired, fighter?_emitAll,
      fighter?_setFighter (f := b.player.fighter) _ rfl] at hf
    split at hf
    · cases hf
      exact distinct_prune used
    · exact distinct id f hf

/-! ## The copies that it reaches -/

end Battle

def SwiftReach.on (r : SwiftReach) : Side → Nat
  | .left => r.left
  | .right => r.right

namespace Battle

/-- The copy that swift reaches on one side of a played copy, if there is one. -/
def reachedOn? (b : Battle) (c : PlayedCopy) (reach : Option SwiftReach) (side : Side) :
    Option Nat :=
  reach.bind fun r =>
    (b.player.piles.neighbor? c.source.anchor side (r.on side)).map fun found => found.2.id

theorem reachedCopies_eq (b : Battle) (c : PlayedCopy) (reach : Option SwiftReach) :
    reachedCopies c reach b =
      (b.reachedOn? c reach .left).toList ++ (b.reachedOn? c reach .right).toList := by
  cases reach with
  | none => rfl
  | some r =>
    simp only [reachedCopies, swiftCopies, reachedOn?, Option.bind_some, SwiftReach.on,
      List.filterMap_cons, List.filterMap_nil]
    cases b.player.piles.neighbor? c.source.anchor .left r.left <;>
      cases b.player.piles.neighbor? c.source.anchor .right r.right <;> rfl

end Battle

/-- What becomes of the copy that swift reaches on one side. -/
inductive SwiftEcho (σ : Scene) : Option Nat → Progress → List Moment → Progress → Prop where
  | nobody {p : Progress} : SwiftEcho σ none p [] p
  | gone {p : Progress} {id : Nat} (absent : id ∉ p.battle.player.piles.handIds) :
      SwiftEcho σ (some id) p [] p
  /-- Without a link in the chain nothing is echoed. -/
  | linkless {p : Progress} {id : Nat} (here : id ∈ p.battle.player.piles.handIds)
      (deep : p.battle.settings.maxChainDepth = 0) : SwiftEcho σ (some id) p [] p
  | runs {p q : Progress} {m : Moment} {ms : List Moment}
      (shallow : 0 < p.battle.settings.maxChainDepth) (scene : m.scene = σ) (cue : m.cue = .swift)
      (before : m.before = p.battle) (held : p.battle.player.piles.hand[m.place]? = some m.copy)
      (card : Resolves m.opened .card { p with battle := m.told } ms q)
      (own : ∀ n ∈ ms, n.cue ≠ .swift) : SwiftEcho σ (some m.copy.id) p (m :: ms) q

/-! ## Echoes by swift -/

/-- A task of a card, not one of swift. -/
def Task.OfCard : Task → Prop
  | .echo cue _ => cue ≠ .swift
  | .copies _ => False
  | _ => True

/-- Within a card it is never swift that echoes. By induction on the resolution. -/
theorem Resolves.cue_ne_swift {σ : Scene} {t : Task} {p q : Progress} {ms : List Moment}
    (h : Resolves σ t p ms q) (ofCard : t.OfCard) : ∀ m ∈ ms, m.cue ≠ .swift := by
  induction h with
  | done => exact List.forall_mem_nil _
  | quiet _ _ ih => exact ih trivial
  | calls call _ _ ih ih' =>
    obtain ⟨side, distance, _, rfl, _⟩ := call?_eq_some call
    exact List.forall_mem_append.mpr ⟨ih nofun, ih' trivial⟩
  | spent _ => exact List.forall_mem_nil _
  | refused _ _ => exact List.forall_mem_nil _
  | paid _ _ _ _ ih ih' => exact List.forall_mem_append.mpr ⟨ih trivial, ih' trivial⟩
  | plain _ _ ih => exact ih trivial
  | unrepeated _ _ _ ih => exact ih trivial
  | repeated _ _ _ _ _ ih ih' => exact List.forall_mem_append.mpr ⟨ih trivial, ih' trivial⟩
  | tooDeep _ => exact List.forall_mem_nil _
  | absent _ _ => exact List.forall_mem_nil _
  | echo _ _ _ ih => exact List.forall_mem_cons.mpr ⟨ofCard, ih trivial⟩
  | unreached => exact List.forall_mem_nil _
  | gone _ _ _ => exact ofCard.elim
  | reached _ _ _ _ _ => exact ofCard.elim

/-- Copies are echoed one after the other. -/
theorem Resolves.copies_append {σ : Scene} {ids ids' : List Nat} {p q : Progress}
    {ms : List Moment} (h : Resolves σ (.copies (ids ++ ids')) p ms q) :
    ∃ ms₁ p₁ ms₂, ms = ms₁ ++ ms₂ ∧ Resolves σ (.copies ids) p ms₁ p₁ ∧
      Resolves σ (.copies ids') p₁ ms₂ q := by
  induction ids generalizing p ms with
  | nil => exact ⟨[], p, ms, rfl, .unreached, h⟩
  | cons id ids ih =>
    cases h with
    | gone none rest =>
      obtain ⟨ms₁, p₁, ms₂, rfl, first, second⟩ := ih rest
      exact ⟨ms₁, p₁, ms₂, rfl, .gone none first, second⟩
    | @reached _ _ _ _ _ p₀ _ ms₀ ms there echo rest =>
      obtain ⟨ms₁, p₁, ms₂, rfl, first, second⟩ := ih rest
      exact ⟨ms₀ ++ ms₁, p₁, ms₂, (List.append_assoc ..).symm, .reached there echo first, second⟩

/-- The copy on one side is echoed, unless it has left the hand. -/
theorem Resolves.swiftEcho {σ : Scene} {id? : Option Nat} {p q : Progress} {ms : List Moment}
    (h : Resolves σ (.copies id?.toList) p ms q) (outermost : σ.depth = 0) :
    SwiftEcho σ id? p ms q := by
  cases id? with
  | none =>
    cases h with
    | unreached => exact .nobody
  | some id =>
    cases h with
    | gone none rest =>
      cases rest with
      | unreached => exact .gone (Piles.handPlace?_eq_none_iff.mp none)
    | @reached _ _ place _ _ p₁ _ ms ms₁ there echo rest =>
      obtain ⟨c, held, rfl⟩ := Piles.handPlace?_spec there
      have here : c.id ∈ p.battle.player.piles.handIds :=
        List.mem_map_of_mem (List.mem_of_getElem? held)
      cases rest with
      | unreached =>
        rw [List.append_nil]
        cases echo with
        | tooDeep deep => exact .linkless here (by omega)
        | absent _ none =>
          rw [held] at none
          cases none
        | @echo _ _ _ d _ _ ms shallow held' card =>
          rw [held] at held'
          cases held'
          exact .runs (m := ⟨σ, .swift, p.battle, place, c⟩) (by omega) rfl rfl rfl held card
            (card.cue_ne_swift trivial)

/-! ## A swift that arrives on the way -/

namespace Battle

variable {b : Battle} {buff : Buff} {t : FighterId}

theorem fighter?_applyBuff {id : FighterId} {f : Fighter} (hf : b.fighter? id = some f)
    (buff : Buff) (t : FighterId) :
    (applyBuff buff b id).fighter? t =
      if t = id then some { f with buffs := (f.buffs.add buff).2 } else b.fighter? t := by
  have told : (applyBuff buff b id).fighter? t =
      (b.setFighter id { f with buffs := (f.buffs.add buff).2 }).fighter? t := by
    simp only [applyBuff, hf]
    rfl
  rw [told, fighter?_setFighter _ hf]

theorem isSome_fighter?_applyBuff (there : (b.fighter? t).isSome) (id : FighterId) :
    ((applyBuff buff b id).fighter? t).isSome := by
  cases hf : b.fighter? id with
  | none => simpa only [applyBuff, hf] using there
  | some f =>
    rw [fighter?_applyBuff hf]
    split
    · rfl
    · exact there

theorem exists_swift?_applyBuff (distinct : b.Distinct) (kind : buff.kind = .swift)
    (active : buff.isActive = true) (there : (b.fighter? t).isSome) :
    ∃ r, (applyBuff buff b t).swift? t = some r := by
  obtain ⟨f, hf⟩ := Option.isSome_iff_exists.mp there
  rw [swift?, fighter?_applyBuff hf, if_pos rfl]
  exact exists_swift?_add (distinct t f hf) kind active

theorem exists_swift?_applyBuffs (distinct : b.Distinct) (kind : buff.kind = .swift)
    (active : buff.isActive = true) (there : (b.fighter? t).isSome) {targets : List FighterId}
    (ht : t ∈ targets) : ∃ r, (targets.foldl (applyBuff buff) b).swift? t = some r := by
  induction targets generalizing b with
  | nil => cases ht
  | cons id ids ih =>
    have next := applyBuff_retains b buff id
    rw [List.foldl_cons]
    rcases List.mem_cons.mp ht with rfl | later
    · obtain ⟨r, found⟩ := exists_swift?_applyBuff distinct kind active there
      exact ⟨r, (applyBuffs_retains _ buff ids).swift (next.distinct distinct) t r found⟩
    · exact ih (next.distinct distinct) (isSome_fighter?_applyBuff there id) later

end Battle

/-- The slot puts the buff on the fighter. -/
def Visit.Applies (v : Visit) (buff : Buff) (t : FighterId) : Prop :=
  ∃ scope spec, v.frame.effect? v.before v.slot = some (.applyBuff scope spec) ∧
    spec.toBuff = .ok buff ∧ t ∈ v.frame.buffTargets scope v.before.battle ∧
    (v.before.battle.fighter? t).isSome

/-- A swift that a slot applies is active behind the slot. -/
theorem Visit.exists_swift? {v : Visit} {buff : Buff} {t : FighterId} (applies : v.Applies buff t)
    (distinct : v.before.battle.Distinct) (kind : buff.kind = .swift) (active : buff.duration ≠ 0) :
    ∃ r, v.after.battle.swift? t = some r := by
  obtain ⟨scope, spec, effect, made, target, there⟩ := applies
  have active : buff.isActive = true := by simpa [Buff.isActive] using active
  have after : v.after.battle =
      (v.frame.buffTargets scope v.before.battle).foldl (Battle.applyBuff buff)
        v.before.battle := by
    rw [Visit.after, runSlot_eq_execute, effect]
    simp only [execute, made, Progress.map]
  rw [after]
  exact Battle.exists_swift?_applyBuffs distinct kind active there target

namespace Battle

variable {b b' o : Battle} {c : PlayedCopy} {target : Option FighterId} {ms : List Moment}

theorem copyVisits_unspent (b : Battle) (c : PlayedCopy) (target : Option FighterId) :
    Unspent { battle := b.takeSwift.2, killed := false } (b.copyVisits c target)
      { battle := (b.resolveCard c target).2, killed := (b.resolveCard c target).1 } :=
  unspent_law.played (fun card p => .still ((applyShifts_alters card p.battle).retains (by decide)))
    b c target

theorem swift?_finishPlay (b : Battle) (t : FighterId) : b.finishPlay.swift? t = b.swift? t := by
  obtain ⟨_, _, _, eq⟩ := b.exists_finishPlay_eq
  rw [swift?, eq]
  cases t <;> rfl

/-- A swift that a visit applies is not used up until the end of the play. -/
theorem exists_swift?_finishPlay (distinct : b.Distinct) {v : Visit}
    (hv : v ∈ b.copyVisits c target) {buff : Buff} {t : FighterId} (applies : v.Applies buff t)
    (kind : buff.kind = .swift) (active : buff.duration ≠ 0) :
    ∃ r, v.after.battle.swift? t = some r ∧
      (b.resolveCard c target).2.finishPlay.swift? t = some r := by
  obtain ⟨before, after⟩ := (b.copyVisits_unspent c target).visits v hv
  have distinct' := before.distinct (distinct_takeSwift distinct)
  obtain ⟨r, found⟩ := Visit.exists_swift? applies distinct' kind active
  refine ⟨r, found, ?_⟩
  rw [swift?_finishPlay]
  exact after.swift (v.retains.distinct distinct') t r found

theorem fighter?_opened (b : Battle) (c : CardCopy) (piles : Piles) (target : Option FighterId)
    (t : FighterId) : (b.opened c piles target).fighter? t = b.fighter? t := by
  have own : (b.opened c piles target).player.fighter = b.player.fighter := by
    simp only [opened, emit, emitActionPoints]
    cases paid : ({ b.player with piles } : Player).spendAction? c.cost with
    | none => rfl
    | some q =>
      obtain ⟨_, eq⟩ := (Player.Budget.spend paid).exists_eq
      rw [Option.getD_some, eq]
  exact fighter?_congr own rfl t

/-! ## A whole play -/

/-- How a played copy resolves: its card, and then the copies on its left and on its right, which
are chosen when the card is done and the gauges have shifted. -/
inductive SwiftCourse (o : Battle) (c : PlayedCopy) (target : Option FighterId)
    (reach : Option SwiftReach) : List Moment → Battle → Prop where
  | intro {p p₁ q : Progress} {ms₀ ms₁ ms₂ : List Moment}
      (card : Resolves (c.scene target o.takeSwift.2) .card
        { battle := o.takeSwift.2, killed := false } ms₀ p)
      (own : ∀ m ∈ ms₀, m.cue ≠ .swift)
      (left : SwiftEcho (c.scene target o.takeSwift.2)
        ((applyShifts c.card p.battle).reachedOn? c reach .left) (p.map (applyShifts c.card)) ms₁
        p₁)
      (right : SwiftEcho (c.scene target o.takeSwift.2)
        ((applyShifts c.card p.battle).reachedOn? c reach .right) p₁ ms₂ q) :
      SwiftCourse o c target reach (ms₀ ++ ms₁ ++ ms₂) q.battle

theorem CopyResolves.course (h : CopyResolves c target o ms b) :
    SwiftCourse o c target o.takeSwift.1 ms b := by
  obtain @⟨p, q, ms₀, ms, card, copies⟩ := h
  rw [reachedCopies_eq] at copies
  obtain ⟨ms₁, p₁, ms₂, rfl, left, right⟩ := copies.copies_append
  rw [← List.append_assoc]
  exact .intro card (card.cue_ne_swift trivial) (left.swiftEcho rfl) (right.swiftEcho rfl)

/-- Without a swift before the play nothing is echoed by swift. -/
theorem SwiftCourse.quiet (h : SwiftCourse o c target none ms b) : ∀ m ∈ ms, m.cue ≠ .swift := by
  obtain ⟨_, own, left, right⟩ := h
  cases left with
  | nobody =>
    cases right with
    | nobody => simpa only [List.append_nil] using own

theorem PlayResolves.course {copy place : Nat} {c : CardCopy} {piles : Piles}
    (h : b.PlayResolves copy target ms b')
    (begun : b.player.piles.beginPlay? copy = some (place, c, piles)) :
    ∃ b₁, SwiftCourse (b.opened c piles target) { copy := c.id, card := c.card, place } target
      (b.opened c piles target).takeSwift.1 ms b₁ ∧ b' = b₁.finishPlay := by
  obtain ⟨begun', resolved⟩ := h
  rw [begun] at begun'
  cases begun'
  exact ⟨_, resolved.course, rfl⟩

/-- What is certain of swift in a play that leads from `b` to `b'`. The copy `c` is played, and `o`
is the state in which it begins to resolve. -/
structure SwiftSettled (b : Battle) (copy : Nat) (target : Option FighterId) (b' o : Battle)
    (c : PlayedCopy) : Prop where
  unchanged : ∀ t, o.fighter? t = b.fighter? t
  /-- An active swift is gone before the first slot runs, whether it reaches a copy or not. -/
  used : ∀ r, b.swift? .player = some r →
    o.takeSwift.1 = some r ∧ o.takeSwift.2.player.fighter.buffs.entries =
      b.player.fighter.buffs.entries.filter fun e => e.isActive && e.kind != .swift
  unused : b.swift? .player = none → o.takeSwift = (none, o)
  ends : ∃ ms, b.PlayResolves copy target ms b'
  told : ∀ ms, b.PlayResolves copy target ms b' → b'.echoes = b.echoes ++ ms.map Moment.echoed
  course : ∀ ms, b.PlayResolves copy target ms b' →
    ∃ b₁, SwiftCourse o c target (b.swift? .player) ms b₁ ∧ b' = b₁.finishPlay
  quiet : b.swift? .player = none → ∀ ms, b.PlayResolves copy target ms b' →
    ∀ m ∈ ms, m.cue ≠ .swift
  /-- A swift that is applied on the way is still active behind the play, with the same reach. -/
  kept : ∀ v ∈ o.copyVisits c target, ∀ buff t, v.Applies buff t → buff.kind = .swift →
    buff.duration ≠ 0 → ∃ r, v.after.battle.swift? t = some r ∧ b'.swift? t = some r

/-- Swift fires once, for copies that are chosen before the first of them is echoed. -/
theorem swift_settled {copy : Nat} (played : b.play copy target = .ok b') (distinct : b.Distinct) :
    ∃ place c piles, b.player.piles.beginPlay? copy = some (place, c, piles) ∧
      b.SwiftSettled copy target b' (b.opened c piles target)
        { copy := c.id, card := c.card, place } := by
  obtain ⟨place, c, piles, begun, _, eq⟩ := exists_of_play played
  obtain ⟨ms, b₁, run⟩ := exists_playResolves played
  rw [run.eq played] at run
  refine ⟨place, c, piles, begun, ?_⟩
  rw [playCopy_eq] at eq
  have same := b.fighter?_opened c piles target
  have course := fun ms (run : b.PlayResolves copy target ms b') => run.course begun
  generalize b.opened c piles target = o at same course eq ⊢
  have apart : o.Distinct := fun id f hf => distinct id f (same id ▸ hf)
  have swift : o.swift? .player = b.swift? .player := by rw [swift?, same, swift?]
  have own : o.player.fighter = b.player.fighter := Option.some.inj (same .player)
  rw [takeSwift_fst apart, swift] at course
  constructor
  case unchanged => exact same
  case used =>
    intro r found
    rw [← own]
    exact takeSwift_of_swift? apart (swift.trans found)
  case unused => exact fun none => takeSwift_of_none (swift.trans none)
  case ends => exact ⟨ms, run⟩
  case told => exact fun ms run => run.log.2.1
  case course => exact course
  case quiet =>
    intro none ms run
    obtain ⟨b₁, resolved, _⟩ := course ms run
    rw [none] at resolved
    exact resolved.quiet
  case kept =>
    intro v hv buff t applies kind active
    rw [eq]
    exact exists_swift?_finishPlay apart hv applies kind active

/-! ## A swift player -/

theorem distinct_dealt (cards : List Card) (seed : UInt64) : (dealt cards seed).Distinct := by
  intro id f hf
  cases id with
  | player =>
    cases hf
    exact List.nodup_nil
  | enemy i =>
    cases i with
    | zero =>
      cases hf
      exact List.nodup_nil
    | succ i => cases hf

def hasteHand : List Card :=
  [ { id := "jab", name := "Jab", cost := 1, description := "Deal 2 damage to all enemies."
      slots := .ofList [Sample.slot .areaDamage "2"] },
    { id := "haste", name := "Haste", cost := 1, description := "Cast the card to the left next."
      slots := .ofList [Sample.slot .buffSelf "Swift,L1,1,2"] },
    { id := "slash", name := "Slash", cost := 1, description := "Deal 3 damage to all enemies."
      slots := .ofList [Sample.slot .areaDamage "3"] } ]

/-- Swift reaches one copy on either side. -/
def hasteDealt : Battle :=
  applyBuff (.make (.swift ⟨1, 1⟩) 1 3) (dealt hasteHand 1) .player

/-- The haste card is played. Both of its neighbours are echoed, and the swift that it applies is
active behind the play. -/
theorem swift_settled_haste :
    hasteDealt.Distinct ∧ hasteDealt.swift? .player = some ⟨1, 1⟩ ∧
      ∃ b', hasteDealt.play 1 none = .ok b' ∧
        b'.echoes = [(0, "jab"), (2, "slash")] ∧ b'.swift? .player = some ⟨1, 0⟩ ∧
        ∃ place c piles, hasteDealt.player.piles.beginPlay? 1 = some (place, c, piles) ∧
          hasteDealt.SwiftSettled 1 none b' (hasteDealt.opened c piles none)
            { copy := c.id, card := c.card, place } := by
  have distinct : hasteDealt.Distinct := (applyBuff_retains _ _ _).distinct (distinct_dealt _ _)
  have free : hasteDealt.objection? 1 none = none :=
    objection?_eq_none_iff.mpr ⟨rfl, ⟨_, rfl, by decide⟩, nofun⟩
  obtain ⟨b', _, played⟩ := attemptPlay_accepted free
  have told : (hasteDealt.play 1 none).toOption.map (fun b => (b.echoes, b.swift? .player)) =
      some ([(0, "jab"), (2, "slash")], some ⟨1, 0⟩) := by decide +kernel
  rw [played] at told
  simp only [Except.toOption, Option.map_some, Option.some.injEq, Prod.mk.injEq] at told
  exact ⟨distinct, by decide, b', played, told.1, told.2, swift_settled played distinct⟩

end Battle

end CardBattle
