import CardBattle.Proofs.Faithful

/-!
# CardBattle.Proofs.Malformed

Malformed slots cannot be noticed. A slot whose value cannot be read, or is a buff that cannot be
made, is passed over like an empty one wherever it runs: in the plain pass, behind the slot that
repeats, and in an echo. To blank it is therefore a faithful reprint, and a battle with malformed
slots goes as the battle without them.

* `Slot.isMalformed`, `Slot.blanked`: which slots are meant, and the empty slot in their place.
* `Frame.runCard_blanked`: the slots of a card with and without the malformed ones.
* `Session.blanked_run`: whole battles.
-/

namespace CardBattle

namespace Slot

/-- The value cannot be read, or it is a buff that cannot be made. -/
def isMalformed (s : Slot) : Bool :=
  match Effect.read s.kind s.value with
  | .error _ => true
  | .ok (some (.applyBuff _ spec)) =>
    match spec.toBuff with
    | .error _ => true
    | .ok _ => false
  | .ok _ => false

/-- An empty slot in the place of a malformed one. A slot that repeats is kept as it is. -/
def blanked (s : Slot) : Slot :=
  if s.kind ≠ .spendRepeat ∧ s.isMalformed = true then { kind := .none } else s

theorem repeats_blanked (s : Slot) : Frame.repeats s.blanked = Frame.repeats s := by
  by_cases bad : s.kind ≠ .spendRepeat ∧ s.isMalformed = true
  · simp [blanked, bad, Frame.repeats]
  · rw [blanked, if_neg bad]

theorem blanked_of_repeats {s : Slot} (h : Frame.repeats s = true) : s.blanked = s := by
  have kind : s.kind = .spendRepeat := by simpa [Frame.repeats] using h
  rw [blanked, if_neg fun bad => bad.1 kind]

end Slot

namespace Frame

variable {echo : Echo} (frame : Frame) (p : Progress)

/-! ## One slot -/

theorem runSlot_of_isMalformed {s : Slot} (h : s.isMalformed = true) :
    frame.runSlot echo p s = p := by
  rw [Slot.isMalformed] at h
  rw [runSlot]
  split
  · rfl
  · split
    · split
      · rename_i e read
        rw [read] at h
        cases e with
        | applyBuff scope spec =>
          simp only at h
          simp only [execute]
          split
          · rfl
          · rename_i buff made
            rw [made] at h
            cases h
        | _ => cases h
      · rfl
      · rfl
    · rfl

theorem runSlot_blanked (s : Slot) :
    frame.runSlot echo p s.blanked = frame.runSlot echo p s := by
  by_cases bad : s.kind ≠ .spendRepeat ∧ s.isMalformed = true
  · rw [Slot.blanked, if_pos bad, runSlot_of_isMalformed frame p bad.2]
    rfl
  · rw [Slot.blanked, if_neg bad]

/-- An effect looks at who runs it and not at the slots beside it. -/
theorem execute_beside (blind : echo.Blind) (beside : List Slot) (e : Effect) :
    { frame with slots := beside }.execute echo p e = frame.execute echo p e := by
  cases e with
  | castMore side distance =>
    simp only [execute, castMore]
    split
    · rfl
    · split
      · rfl
      · exact blind frame beside _ p
  | _ => rfl

theorem runSlot_beside (blind : echo.Blind) (beside : List Slot) (s : Slot) :
    { frame with slots := beside }.runSlot echo p s = frame.runSlot echo p s := by
  simp only [runSlot, execute_beside frame p blind]
  rfl

/-! ## The slots of a card -/

theorem runSlots_blanked (blind : echo.Blind) (beside slots : List Slot) :
    { frame with slots := beside }.runSlots echo (slots.map Slot.blanked) p =
      frame.runSlots echo slots p := by
  simp only [runSlots, List.foldl_map, runSlot_beside frame _ blind, runSlot_blanked]

theorem runRepeats_blanked (blind : echo.Blind) (beside slots : List Slot) (meter : Meter)
    (cost : Int) (n : Nat) :
    { frame with slots := beside }.runRepeats echo (slots.map Slot.blanked) meter cost n p =
      frame.runRepeats echo slots meter cost n p := by
  induction n generalizing p with
  | zero => rfl
  | succ n ih => simp only [runRepeats, runSlots_blanked frame _ blind, ih]

theorem plainSlots_blanked :
    { frame with slots := frame.slots.map Slot.blanked }.plainSlots =
      frame.plainSlots.map Slot.blanked := by
  have same : (fun s => !repeats s) ∘ Slot.blanked = fun s => !repeats s :=
    funext fun s => congrArg not s.repeats_blanked
  rw [plainSlots, List.takeWhile_map, same]
  rfl

/-- The slot that repeats stays where it is, and it is not changed. -/
theorem repeatSlot?_blanked :
    { frame with slots := frame.slots.map Slot.blanked }.repeatSlot? =
      frame.repeatSlot?.map fun found => (found.1, found.2.map Slot.blanked) := by
  have same : (fun s => !repeats s) ∘ Slot.blanked = fun s => !repeats s :=
    funext fun s => congrArg not s.repeats_blanked
  simp only [repeatSlot?, List.dropWhile_map, same]
  cases left : frame.slots.dropWhile fun s => !repeats s with
  | nil => rfl
  | cons s rest =>
    have first : repeats s = true := by
      have head := List.head?_dropWhile_not (fun s => !repeats s) frame.slots
      rw [left] at head
      simpa using head
    simp only [List.map_cons, Slot.blanked_of_repeats first, Option.map_some]

/-- Without its malformed slots a card does the same. -/
theorem runCard_blanked (blind : echo.Blind) :
    { frame with slots := frame.slots.map Slot.blanked }.runCard echo p = frame.runCard echo p := by
  simp only [runCard, plainSlots_blanked, repeatSlot?_blanked, runSlots_blanked frame _ blind]
  cases frame.repeatSlot? with
  | none => rfl
  | some found =>
    simp only [Option.map_some, runRepeatSlot, runRepeats_blanked frame _ blind]
    rfl

end Frame

/-! ## Whole battles -/

def UpTo.map {n : Nat} {α β : Type} (f : α → β) (xs : UpTo n α) : UpTo n β :=
  ⟨xs.items.map f, by simpa using xs.length_le⟩

def Card.blanked (c : Card) : Card := { c with slots := c.slots.map Slot.blanked }

/-- To blank malformed slots is a faithful reprint. -/
theorem faithful_blanked : Faithful Card.blanked where
  id _ := rfl
  cost _ := rfl
  element _ := rfl
  angelShift _ := rfl
  demonShift _ := rfl
  slots c _ blind frame p := Frame.runCard_blanked { frame with slots := c.slots.items } p blind

/-- The catalog with empty slots in the place of the malformed slots of its cards. -/
def Catalog.blanked (c : Catalog) : Catalog := c.reprint Card.blanked

/-- The battle with empty slots in the place of the malformed slots of its cards. -/
def Battle.blanked (b : Battle) : Battle := b.reprint Card.blanked

namespace Session

/-- The second session is the first without malformed slots, and nobody can tell. -/
structure Unnoticed (s s' : Session) : Prop where
  battle : s'.battle = s.battle.blanked
  chance : s'.battle.chance = s.battle.chance
  drained : s'.drained = s.drained
  history : s'.history = s.history
  /-- Every call is answered alike, with the same fault or with the same state. -/
  plays : ∀ copy target,
    s'.battle.play copy target = (s.battle.play copy target).map Battle.blanked
  turns : s'.battle.endTurn = s.battle.endTurn.map Battle.blanked

theorem unnoticed_reprint (s : Session) : s.Unnoticed (s.reprint Card.blanked) where
  battle := rfl
  chance := rfl
  drained := rfl
  history := rfl
  plays := s.battle.play_reprint faithful_blanked
  turns := s.battle.endTurn_reprint faithful_blanked

/-- A battle starts and goes on as the battle in which malformed slots are empty. -/
theorem blanked_run (c : Catalog) (settings : Settings) (seed : UInt64) (deck : List String)
    (foes : List Foe) :
    Battle.start c.blanked settings seed deck foes =
        (Battle.start c settings seed deck foes).map Battle.blanked ∧
      ∀ b, Battle.start c settings seed deck foes = .ok b → ∀ calls : List Call,
        Unnoticed (run { battle := b } calls) (run { battle := b.blanked } calls) := by
  refine ⟨Battle.start_reprint faithful_blanked c settings seed deck foes, fun b _ calls => ?_⟩
  have together := run_reprint faithful_blanked { battle := b } calls
  have unnoticed := unnoticed_reprint (run { battle := b } calls)
  rw [← together] at unnoticed
  exact unnoticed

/-- Content with one card, of which one number and one buff cannot be made out. -/
def smudged : Catalog :=
  .ofLists
    [{ id := "smudge", name := "Smudge", cost := 1
       slots := .ofList [Sample.slot .singleDamage "lots", Sample.slot .buffSelf "Stoneskin,1,1,1",
        Sample.slot .singleDamage "4"] }]
    Sample.monsters Sample.behaviors Sample.skills

/-- The last slot of the card hits a slime, which has 40 hit points. -/
theorem exists_smudge :
    ∃ b, Battle.start smudged Sample.settings 1 ["smudge"] [{ monsterId := "slime" }] = .ok b ∧
      ((run { battle := b } [.play 0 (some (.enemy 0))]).battle.fighter? (.enemy 0)).map
        Fighter.hp = some 36 := by
  have started : ∃ b, Battle.start smudged Sample.settings 1 ["smudge"]
      [{ monsterId := "slime" }] = .ok b :=
    Battle.exists_start _ _ nofun nofun rfl rfl
  obtain ⟨b, h⟩ := started
  have hit : (Battle.start smudged Sample.settings 1 ["smudge"]
      [{ monsterId := "slime" }]).toOption.bind (fun b =>
        ((run { battle := b } [.play 0 (some (.enemy 0))]).battle.fighter? (.enemy 0)).map
          Fighter.hp) = some 36 := by
    decide +kernel
  rw [h] at hit
  exact ⟨b, h, hit⟩

/-- The first two slots of the card are blanked, and nobody can tell when it is played. -/
theorem blanked_smudge :
    smudged.blanked.cards.items.map (fun c => c.slots.items) =
        [[{ kind := .none }, { kind := .none }, Sample.slot .singleDamage "4"]] ∧
      ∃ b, Battle.start smudged Sample.settings 1 ["smudge"] [{ monsterId := "slime" }] = .ok b ∧
        Battle.start smudged.blanked Sample.settings 1 ["smudge"] [{ monsterId := "slime" }] =
          .ok b.blanked ∧
        ((run { battle := b } [.play 0 (some (.enemy 0))]).battle.fighter? (.enemy 0)).map
          Fighter.hp = some 36 ∧
        Unnoticed (run { battle := b } [.play 0 (some (.enemy 0))])
          (run { battle := b.blanked } [.play 0 (some (.enemy 0))]) := by
  obtain ⟨b, h, hit⟩ := exists_smudge
  obtain ⟨started, unnoticed⟩ :=
    blanked_run smudged Sample.settings 1 ["smudge"] [{ monsterId := "slime" }]
  rw [h] at started
  exact ⟨by decide +kernel, b, h, started, hit, unnoticed b h _⟩

end Session
end CardBattle
