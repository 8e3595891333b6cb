import CardBattle.Proofs.Bystanders
import CardBattle.Proofs.Numerals
import CardBattle.Proofs.Rows
import CardBattle.Proofs.WellFormed

/-!
# CardBattle.Proofs.Quiet

What neither puts a buff on anyone nor queues a hit. Most effects are quiet, and so are the ends of
turns, the choice of intents and landing hits. Skills are quiet because their values are single
numbers: buffs, delays, echoes and repetitions are read from values with a comma.

* `Effect.isQuiet_of_mem_slots`: the effects of a skill.
* `Ledger.Stays`, `Ledger.Remains`: a ledger that only loses entries.
* `Battle.KeepsQueue`, `Battle.Ebbs`, `Battle.Quiet`: the queue stays as it is, and every ledger
  only loses entries.
* `Frame.execute_quiet`, `Battle.resolveSkill_quiet`, `Battle.enemyRests_quiet`,
  `Battle.landAll_quiet`: where a battle is quiet.
-/

namespace CardBattle

/-! ## Values without a comma -/

theorem Skill.valueText_subset_marks (attack : Int) (e : SkillEffect) :
    valueText attack e ⊆ Numeral.marks := by
  simp only [valueText]
  split
  · exact Numeral.signedDecimal_subset_marks _
  · split
    · exact Numeral.signedDecimal_subset_marks _
    · exact Binary.toText_subset_marks e.value

theorem Skill.comma_notMem_valueText (attack : Int) (e : SkillEffect) :
    ',' ∉ valueText attack e := by
  have noComma : ',' ∉ Numeral.marks := by decide
  exact fun there => noComma (valueText_subset_marks attack e there)

namespace Effect

/-- Whether an effect neither puts a buff on anyone, nor queues a hit, nor runs other slots. -/
def isQuiet : Effect → Bool
  | .applyBuff _ _ | .castMore _ _ | .delay _ _ _ | .spendRepeat _ _ _ => false
  | _ => true

/-- The other effects are read from several fields. -/
theorem isQuiet_of_read {kind : EffectKind} {value : String} {e : Effect}
    (single : ',' ∉ value.toList) (h : read kind value = .ok (some e)) : e.isQuiet = true := by
  have single' : ',' ∉ Text.trim value.toList := fun there =>
    single ((Text.mem_trim_iff (by decide)).mp there)
  rw [read] at h
  generalize Text.trim value.toList = cs at single' h
  have noBuff : ∀ scope, (buff cs scope).map some ≠ .ok (some e) := by
    intro scope eq
    simp [buff, BuffSpec.read, Text.fields_of_not_mem single', Except.map] at eq
  have noPair : ∀ expected, pair kind cs expected =
      .error (.invalidFormat kind (String.ofList cs) expected) := by
    intro expected
    simp [pair, Text.cut_eq_none_iff.mpr single']
  cases kind with
  | none => cases h
  | buffSelf | buffTarget | buffArea => exact absurd h (noBuff _)
  | castMore =>
    rw [readTrimmed, castMoreOf, noPair] at h
    cases h
  | delaySingle | delayArea =>
    rw [readTrimmed, delayOf, noPair] at h
    cases h
  | spendRepeat =>
    rw [readTrimmed, spendRepeatOf, Text.fields_of_not_mem single'] at h
    cases h
  | _ =>
    obtain ⟨_, _, eq⟩ := map_eq_ok_iff.mp h
    cases eq
    rfl

/-- What a skill can do is quiet. -/
theorem isQuiet_of_mem_slots {skill : Skill} {attack : Int} {s : Slot} {e : Effect}
    (hs : s ∈ skill.slots attack) (h : read s.kind s.value = .ok (some e)) : e.isQuiet = true := by
  obtain ⟨effect, _, rfl⟩ := List.mem_map.mp hs
  refine isQuiet_of_read ?_ h
  rw [String.toList_ofList]
  exact Skill.comma_notMem_valueText attack effect

end Effect

/-! ## Ledgers -/

namespace Ledger

/-- Two entries that differ at most in what fear remembers. -/
structure Stays (b c : Buff) : Prop where
  stack : c.stack = b.stack
  data : c.data.bare = b.data.bare
  duration : c.duration = b.duration

theorem Stays.refl (b : Buff) : Stays b b := ⟨rfl, rfl, rfl⟩

theorem Stays.trans {a b c : Buff} (h : Stays a b) (h' : Stays b c) : Stays a c :=
  ⟨h'.stack.trans h.stack, h'.data.trans h.data, h'.duration.trans h.duration⟩

/-- An active entry after wear is the entry before. -/
theorem Wears.stays {b c : Buff} (h : Wears b c) (active : c.isActive = true) : Stays b c := by
  obtain ⟨_, stack⟩ := Prod.mk.inj h.face
  obtain spent | ⟨duration, data⟩ := h.spent
  · simp [Buff.isActive, spent] at active
  · exact ⟨stack, data, duration⟩

theorem Wears.trans {a b c : Buff} (h : Wears a b) (h' : Wears b c) : Wears a c := by
  refine ⟨h'.face.trans h.face, ?_⟩
  obtain spent' | ⟨duration', data'⟩ := h'.spent
  · exact .inl spent'
  · obtain spent | ⟨duration, data⟩ := h.spent
    · exact .inl (duration'.trans spent)
    · exact .inr ⟨duration'.trans duration, data'.trans data⟩

/-- Entries have left a ledger, and the others stand in their order, changed as `R` says. -/
def Remains (R : Buff → Buff → Prop) (l l' : Ledger) : Prop :=
  ∃ kept : List Buff, kept.Sublist l.entries ∧ List.Forall₂ R kept l'.entries

variable {R S T : Buff → Buff → Prop} {l l₁ l' : Ledger}

theorem remains_self (h : ∀ b, R b b) (l : Ledger) : l.Remains R l :=
  ⟨l.entries, .refl _, List.forall₂_same.mpr fun b _ => h b⟩

/-- A part of the later entries comes from a part of the earlier ones. -/
theorem exists_sublist_of_forall₂ {bs cs ds : List Buff} (h : List.Forall₂ R bs cs)
    (sub : ds.Sublist cs) : ∃ kept : List Buff, kept.Sublist bs ∧ List.Forall₂ R kept ds := by
  induction h generalizing ds with
  | nil =>
    rw [List.sublist_nil.mp sub]
    exact ⟨[], .refl _, .nil⟩
  | @cons b c bs cs first _ ih =>
    cases sub with
    | cons _ sub =>
      obtain ⟨kept, within, same⟩ := ih sub
      exact ⟨kept, within.cons b, same⟩
    | cons_cons _ sub =>
      obtain ⟨kept, within, same⟩ := ih sub
      exact ⟨b :: kept, within.cons_cons b, .cons first same⟩

theorem forall₂_trans (compose : ∀ a b c, R a b → S b c → T a c) {bs cs ds : List Buff}
    (h : List.Forall₂ R bs cs) (h' : List.Forall₂ S cs ds) : List.Forall₂ T bs ds := by
  induction h generalizing ds with
  | nil =>
    cases h'
    exact .nil
  | cons first _ ih =>
    cases h' with
    | cons second rest => exact .cons (compose _ _ _ first second) (ih rest)

theorem Remains.trans (compose : ∀ a b c, R a b → S b c → T a c) (h : l.Remains R l₁)
    (h' : l₁.Remains S l') : l.Remains T l' := by
  obtain ⟨kept, within, same⟩ := h
  obtain ⟨kept', within', same'⟩ := h'
  obtain ⟨early, withinEarly, sameEarly⟩ := exists_sublist_of_forall₂ same within'
  exact ⟨early, withinEarly.trans within, forall₂_trans compose sameEarly same'⟩

/-- Pruning takes out what has been spent. -/
theorem remains_prune (h : List.Forall₂ Wears l.entries l₁.entries) :
    l.Remains Stays l₁.prune.2 := by
  obtain ⟨kept, within, same⟩ := exists_sublist_of_forall₂ h
    (List.filter_sublist (p := Buff.isActive) (l := l₁.entries))
  have active : ∀ c ∈ l₁.prune.2.entries, c.isActive = true := fun c hc =>
    (List.mem_filter.mp hc).2
  refine ⟨kept, within, ?_⟩
  change List.Forall₂ Wears kept l₁.prune.2.entries at same
  generalize l₁.prune.2.entries = cs at active same
  clear within
  induction same with
  | nil => exact .nil
  | cons first _ ih =>
    rw [List.forall_mem_cons] at active
    exact .cons (first.stays active.1) (ih active.2)

theorem Remains.of_sublist (h : l'.entries.Sublist l.entries) : l.Remains Stays l' :=
  ⟨l'.entries, h, List.forall₂_same.mpr fun b _ => .refl b⟩

end Ledger

theorem Fighter.remains_takeHit (f : Fighter) (x : Single) :
    f.buffs.Remains Ledger.Stays (f.takeHit x).2.2.buffs := by
  have pruned : (f.takeHit x).2.2.buffs =
      (if 0 < (f.takeHit x).1.lost then (f.buffs.incoming x).2.record (f.takeHit x).1.lost
        else (f.buffs.incoming x).2).prune.2 := rfl
  have hit : List.Forall₂ Ledger.Wears f.buffs.entries (f.buffs.incoming x).2.entries :=
    Ledger.wears_incomingFrom f.buffs.entries x
  rw [pruned]
  refine Ledger.remains_prune ?_
  split
  · rw [Ledger.record, List.forall₂_map_right_iff]
    exact hit.imp fun b c h => h.trans (Ledger.wears_recordIn _ c)
  · exact hit

/-! ## Battles -/

/-- What is told of a hit that is queued. -/
def Event.queued? : Event → Option (FighterId × Single × Int)
  | .delayedQueued caster damage turns => some (caster, damage, turns)
  | _ => none

namespace Battle

/-- The hits queued so far, as far as they are told. -/
def queuings (b : Battle) : List (FighterId × Single × Int) :=
  b.events.toList.filterMap Event.queued?

theorem queuings_emitAll (b : Battle) {es : List Event} (h : ∀ e ∈ es, e.queued? = none) :
    (b.emitAll es).queuings = b.queuings := by
  rw [queuings, events_emitAll, List.filterMap_append, List.filterMap_eq_nil_iff.mpr h,
    List.append_nil, queuings]

theorem queuings_congr {b b' : Battle} (h : b'.events = b.events) : b'.queuings = b.queuings := by
  rw [queuings, h, queuings]

/-- No hit is queued, and none leaves the queue. -/
structure KeepsQueue (b b' : Battle) : Prop where
  delayed : b'.delayed = b.delayed
  queuings : b'.queuings = b.queuings

/-- The ledger of a fighter only loses entries, and the others change as `R` says. -/
def Ebbs (R : Buff → Buff → Prop) (id : FighterId) (b b' : Battle) : Prop :=
  ∀ f, b.fighter? id = some f →
    ∃ f', b'.fighter? id = some f' ∧ f.buffs.Remains R f'.buffs

/-- The queue stays as it is, and every ledger only loses entries. -/
structure Quiet (b b' : Battle) : Prop where
  queue : b.KeepsQueue b'
  ledgers : ∀ id, Ebbs Ledger.Stays id b b'

variable {b b₁ b' : Battle} {R S T : Buff → Buff → Prop} {id : FighterId}

theorem KeepsQueue.refl (b : Battle) : b.KeepsQueue b := ⟨rfl, rfl⟩

theorem KeepsQueue.trans (h : b.KeepsQueue b₁) (h' : b₁.KeepsQueue b') : b.KeepsQueue b' :=
  ⟨h'.delayed.trans h.delayed, h'.queuings.trans h.queuings⟩

theorem ebbs_same (h : b'.fighter? id = b.fighter? id) : Ebbs Ledger.Stays id b b' := fun f hf =>
  ⟨f, h.trans hf, Ledger.remains_self Ledger.Stays.refl f.buffs⟩

theorem Ebbs.trans (compose : ∀ a b c, R a b → S b c → T a c) (h : Ebbs R id b b₁)
    (h' : Ebbs S id b₁ b') : Ebbs T id b b' := by
  intro f hf
  obtain ⟨f₁, hf₁, first⟩ := h f hf
  obtain ⟨f', hf', second⟩ := h' f₁ hf₁
  exact ⟨f', hf', first.trans compose second⟩

theorem Ebbs.still (h : Ebbs Ledger.Stays id b b₁) (h' : Ebbs Ledger.Stays id b₁ b') :
    Ebbs Ledger.Stays id b b' :=
  h.trans (fun _ _ _ first second => first.trans second) h'

theorem Quiet.refl (b : Battle) : b.Quiet b := ⟨.refl b, fun _ => ebbs_same rfl⟩

theorem Quiet.trans (h : b.Quiet b₁) (h' : b₁.Quiet b') : b.Quiet b' :=
  ⟨h.queue.trans h'.queue, fun id => (h.ledgers id).still (h'.ledgers id)⟩

theorem quiet_foldl {α : Type} {act : Battle → α → Battle} (h : ∀ b a, Quiet b (act b a))
    (as : List α) (b : Battle) : b.Quiet (as.foldl act b) := by
  induction as generalizing b with
  | nil => exact .refl b
  | cons a as ih => exact (h b a).trans (ih _)

/-- What leaves the fighters and the queue alone, and tells nothing of the queue. -/
theorem quiet_aside (es : List Event) (delayed : b'.delayed = b.delayed)
    (events : b'.events.toList = b.events.toList ++ es) (told : ∀ e ∈ es, e.queued? = none)
    (same : ∀ id, b'.fighter? id = b.fighter? id) : b.Quiet b' := by
  refine ⟨⟨delayed, ?_⟩, fun id => ebbs_same (same id)⟩
  rw [queuings, events, List.filterMap_append, List.filterMap_eq_nil_iff.mpr told,
    List.append_nil, queuings]

theorem quiet_emit {e : Event} (h : e.queued? = none) (b : Battle) : b.Quiet (b.emit e) :=
  quiet_aside [e] rfl Array.toList_push (by simpa using h) fun _ => rfl

theorem delayed_setFighter (b : Battle) (id : FighterId) (f : Fighter) :
    (b.setFighter id f).delayed = b.delayed := by
  cases id <;> rfl

theorem queued?_of_fighters {es : List Event} (h : ∀ e ∈ es, e.topic = .fighters) :
    ∀ e ∈ es, e.queued? = none := by
  intro e he
  have topic := h e he
  cases e <;> first | rfl | cases topic

/-- No change of a fighter is about the queue. -/
theorem keepsQueue_change {f f' : Fighter} {es : List Event} (h : f.Change id es f') :
    b.KeepsQueue ((b.setFighter id f').emitAll es) := by
  constructor
  · rw [emitAll_eq]
    exact delayed_setFighter b id f'
  · rw [queuings_emitAll _ (queued?_of_fighters h.topic)]
    exact queuings_congr (events_setFighter b id f')

/-- A change of a fighter, as seen by its ledger. -/
theorem ebbs_change {f f' : Fighter} (es : List Event) (hf : b.fighter? id = some f)
    (remains : f.buffs.Remains R f'.buffs) : Ebbs R id b ((b.setFighter id f').emitAll es) := by
  intro g hg
  rw [hf, Option.some.injEq] at hg
  subst hg
  refine ⟨f', ?_, remains⟩
  rw [fighter?_emitAll, fighter?_setFighter f' hf, if_pos rfl]

/-- A change of a fighter that only takes entries out of its ledger. -/
theorem quiet_change {f f' : Fighter} {es : List Event} (hf : b.fighter? id = some f)
    (h : f.Change id es f') (remains : f.buffs.Remains Ledger.Stays f'.buffs) :
    b.Quiet ((b.setFighter id f').emitAll es) := by
  refine ⟨keepsQueue_change h, fun j => ?_⟩
  by_cases hj : j = id
  · rw [hj]
    exact ebbs_change es hf remains
  · refine ebbs_same ?_
    rw [fighter?_emitAll, fighter?_setFighter f' hf, if_neg hj]

theorem hurt_quiet (target : FighterId) (x : Single) (b : Battle) :
    b.Quiet (b.hurt target x).2 := by
  simp only [hurt]
  split
  · exact .refl b
  · split
    · exact .refl b
    · rename_i f hf
      split
      · rename_i alive
        exact quiet_change hf (.hit x alive) (f.remains_takeHit x)
      · exact .refl b

theorem heal_quiet (target : FighterId) (x : Single) (b : Battle) :
    b.Quiet (b.heal target x).2 := by
  simp only [heal]
  split
  · exact .refl b
  · rename_i f hf
    split
    · rename_i alive
      have mended := quiet_change hf (.mend x alive)
        (Ledger.remains_self Ledger.Stays.refl f.buffs)
      by_cases hr : 0 < (f.mend x).1
      · simp only [hr, if_true] at mended ⊢
        exact mended
      · simp only [hr, if_false] at mended ⊢
        exact mended
    · exact .refl b

/-- Uses that spend entries, and the pruning that follows. -/
theorem settle_quiet {f : Fighter} {l : Ledger} (hf : b.fighter? id = some f)
    (h : f.buffs.Use l) (wears : List.Forall₂ Ledger.Wears f.buffs.entries l.entries) :
    b.Quiet ((b.setFighter id { f with buffs := l.prune.2 }).emitExpired id l.prune.1) :=
  quiet_change hf (.settle h) (Ledger.remains_prune wears)

theorem drainLife_quiet (attacker : FighterId) (lost : Int) (b : Battle) :
    b.Quiet (b.drainLife attacker lost) := by
  simp only [drainLife]
  split
  · exact .refl b
  · rename_i f hf
    split
    · exact .refl b
    · rename_i percent l hl
      have drained : f.buffs.drain.2 = l := by rw [hl]
      have settled := settle_quiet hf .drain (Ledger.wears_drainFrom f.buffs.entries)
      rw [drained] at settled
      exact settled.trans (heal_quiet _ _ _)

theorem strike_quiet (attacker target : FighterId) (base : Single) (b : Battle) :
    b.Quiet (b.strike attacker target base).2 := by
  have drains : ∀ x : Single, b.Quiet
      (if 0 < (b.hurt target x).1.lost && attacker != target then
        (b.hurt target x).2.drainLife attacker (b.hurt target x).1.lost
      else (b.hurt target x).2) := by
    intro x
    split
    · exact (hurt_quiet _ _ _).trans (drainLife_quiet _ _ _)
    · exact hurt_quiet _ _ _
  exact drains _

theorem hurtSelf_quiet (caster : FighterId) (x : Single) (b : Battle) :
    b.Quiet (b.hurtSelf caster x) := by
  simp only [hurtSelf]
  split
  · exact .refl b
  · exact hurt_quiet _ _ _

theorem healPercent_quiet (caster : FighterId) (x : Single) (b : Battle) :
    b.Quiet (b.healPercent caster x) := by
  simp only [healPercent]
  split
  · exact .refl b
  · exact heal_quiet _ _ _

theorem cleanse_quiet (target : FighterId) (n : Nat) (b : Battle) :
    b.Quiet (b.cleanse target n) := by
  simp only [cleanse]
  split
  · exact .refl b
  · rename_i f hf
    obtain ⟨_, _, _, sub⟩ := Ledger.cleanseFrom_perm n f.buffs.entries
    exact quiet_change hf (.cleanse n) (.of_sublist sub)

/-- Changes of the piles. -/
theorem quiet_piles (pool : List Card) {p : Piles} {s : Chance.Stream} {es : List Event}
    (h : b.player.piles.Change pool b.chance es p s) : b.Quiet ((b.setPiles p s).emitAll es) := by
  refine quiet_aside es ?_ (events_emitAll _ es) ?_ fun id => ?_
  · rw [emitAll_eq]
    rfl
  · intro e he
    have topic := h.topic e he
    cases e <;> first | rfl | cases topic
  · rw [fighter?_emitAll]
    exact fighter?_congr rfl rfl id

theorem drawCards_quiet (n : Nat) (b : Battle) : b.Quiet (b.drawCards n) := by
  have h := quiet_piles (b := b) b.pool (.draw n)
  simp only [drawCards]
  generalize b.player.piles.draw n b.chance = r at h ⊢
  obtain ⟨⟨ids, reshuffled⟩, p, s⟩ := r
  cases reshuffled <;> cases ids <;> exact h

theorem destroyCards_quiet (pile : Pile) (n : Nat) (b : Battle) :
    b.Quiet (b.destroyCards pile n) := by
  have h := quiet_piles (b := b) b.pool (.destroy pile n)
  simp only [destroyCards]
  generalize b.player.piles.destroy pile n b.chance = r at h ⊢
  obtain ⟨ids, p, s⟩ := r
  cases ids <;> exact h

theorem grantCards_quiet (n : Nat) (b : Battle) : b.Quiet (b.grantCards n) := by
  have h := quiet_piles (b := b) b.pool (.grant n)
  simp only [grantCards]
  generalize b.player.piles.grant b.pool n b.chance = r at h ⊢
  obtain ⟨ids, p, s⟩ := r
  cases ids <;> exact h

theorem reduceCost_quiet (copy : Nat) (amount : Int) (b : Battle) :
    b.Quiet (b.reduceCost copy amount) := by
  simp only [reduceCost]
  split
  · exact .refl b
  · rename_i cost p hp
    exact quiet_piles (b := b) b.pool (.reduceCost hp)

/-- Changes of gauges and action points, which one event tells. -/
theorem quiet_player {p : Player} {e : Event} (fighter : p.fighter = b.player.fighter)
    (h : e.queued? = none) : b.Quiet ({ b with player := p }.emit e) :=
  quiet_aside [e] rfl Array.toList_push (by simpa using h)
    (fighter?_congr fighter rfl)

theorem fighter_shift (p : Player) (gauge : Gauge) (n : Int) :
    (p.shift gauge n).fighter = p.fighter := by
  cases gauge <;> rfl

theorem shiftGauge_quiet (gauge : Gauge) (n : Int) (b : Battle) :
    b.Quiet (b.shiftGauge gauge n).emitGauges :=
  quiet_player (fighter_shift b.player gauge n) rfl

theorem budget_quiet {p : Player} (h : b.player.Budget p) :
    b.Quiet { b with player := p }.emitActionPoints := by
  obtain ⟨n, rfl⟩ := h.exists_eq
  exact quiet_player rfl rfl

theorem takeSwift_quiet (b : Battle) : b.Quiet b.takeSwift.2 := by
  have there : b.fighter? .player = some b.player.fighter := rfl
  have settled := settle_quiet there .swift
    (Ledger.wears_takeSwiftFrom b.player.fighter.buffs.entries)
  simp only [takeSwift]
  split
  · exact .refl b
  · rename_i reach l hl
    rw [hl] at settled
    exact settled

theorem applyShifts_quiet (card : Card) (b : Battle) : b.Quiet (applyShifts card b) := by
  have shifted : (Player.shift (b.player.shift .angel card.angelShift) .demon
      card.demonShift).fighter = b.player.fighter :=
    (fighter_shift _ _ _).trans (fighter_shift _ _ _)
  simp only [applyShifts]
  split
  · exact .refl b
  · exact quiet_player shifted rfl

end Battle

/-! ## Resolutions -/

namespace Frame

open Battle

theorem strikes_quiet (caster : FighterId) (x : Single) (targets : List FighterId)
    (p : Progress) :
    p.battle.Quiet (targets.foldl (Progress.strike caster x) p).battle := by
  induction targets generalizing p with
  | nil => exact .refl _
  | cons t ts ih => exact (strike_quiet caster t x p.battle).trans (ih (p.strike caster x t))

theorem execute_quiet (frame : Frame) (p : Progress) {e : Effect} (h : e.isQuiet = true) :
    p.battle.Quiet (frame.execute mute p e).battle := by
  cases e with
  | damageTarget x =>
    simp only [execute]
    split
    · exact .refl _
    · exact strike_quiet _ _ _ _
  | damageOpponents x => exact strikes_quiet _ _ _ _
  | damageSelf x => exact hurtSelf_quiet _ _ _
  | healSelf x => exact heal_quiet _ _ _
  | healSelfPercent x => exact healPercent_quiet _ _ _
  | shiftGauge gauge delta => exact shiftGauge_quiet _ _ _
  | gainAction n =>
    simp only [execute]
    split
    · exact .refl _
    · exact budget_quiet (.gain n)
  | reduceCost n =>
    simp only [execute]
    split
    · exact .refl _
    · exact reduceCost_quiet _ _ _
  | drawCards n => exact drawCards_quiet n _
  | burn pile n => exact destroyCards_quiet pile n _
  | cleanseSelf n => exact cleanse_quiet _ _ _
  | applyBuff _ _ => cases h
  | castMore _ _ => cases h
  | delay _ _ _ => cases h
  | spendRepeat _ _ _ => cases h

theorem runSlots_quiet {frame : Frame} {slots : List Slot}
    (h : ∀ s ∈ slots, ∀ e, Effect.read s.kind s.value = .ok (some e) → e.isQuiet = true)
    (p : Progress) : p.battle.Quiet (frame.runSlots mute slots p).battle := by
  simp only [runSlots]
  induction slots generalizing p with
  | nil => exact .refl _
  | cons s ss ih =>
    rw [List.forall_mem_cons] at h
    have first : p.battle.Quiet (frame.runSlot mute p s).battle := by
      rw [runSlot_eq_execute]
      cases effect : frame.effect? p s with
      | none => exact .refl _
      | some e => exact execute_quiet frame p (h.1 e (read_of_effect? effect))
    exact first.trans (ih h.2 _)

end Frame

namespace Battle

theorem resolveSkill_quiet (i : Nat) (skill : Skill) (attack : Int) (b : Battle) :
    b.Quiet (b.resolveSkill (.enemy i) skill attack).2 := by
  obtain ⟨frame, _, slots, eq⟩ := resolveSkill_eq i skill attack b
  rw [eq]
  have quiet : ∀ s ∈ frame.plainSlots, ∀ e, Effect.read s.kind s.value = .ok (some e) →
      e.isQuiet = true := by
    intro s hs e read
    have own : s ∈ skill.slots attack := slots ▸ (List.takeWhile_sublist _).subset hs
    exact Effect.isQuiet_of_mem_slots own read
  exact Frame.runSlots_quiet quiet { battle := b, killed := false }

/-! ## Turns -/

theorem quiet_updateEnemy (b : Battle) (id : FighterId) (g : Enemy → Enemy)
    (hg : ∀ e, (g e).fighter = e.fighter) : b.Quiet (b.updateEnemy id g) := by
  refine quiet_aside [] ?_ ?_ nofun (fighter?_congr ?_ (map_fighter_updateEnemy b id g hg))
  · cases id <;> rfl
  · rw [events_updateEnemy, List.append_nil]
  · rw [player_updateEnemy]

theorem casting_quiet (id : FighterId) (skill : Skill) (b : Battle) :
    b.Quiet (b.casting id skill) := by
  have counted : b.Quiet (b.updateEnemy id fun e => { e with casts := e.casts + 1 }) :=
    quiet_updateEnemy b id _ fun _ => rfl
  exact counted.trans (quiet_emit rfl _)

theorem performIntent_quiet {id : FighterId} (enemy : id ≠ .player) (b : Battle)
    (alive : b.isAlive id = true) : b.Quiet (b.performIntent id).2 := by
  obtain ⟨_, eq⟩ | ⟨skill, attack, _, eq⟩ := performIntent_eq b alive enemy
  · rw [eq]
    exact .refl b
  · cases id with
    | player => exact absurd rfl enemy
    | enemy i =>
      rw [eq]
      exact (casting_quiet _ skill b).trans (resolveSkill_quiet i skill attack _)

theorem chooseIntent_quiet (id : FighterId) (b : Battle) : b.Quiet (b.chooseIntent id).2 := by
  have rolled : ∀ s : Chance.Stream, b.Quiet { b with chance := s } := fun s =>
    quiet_aside [] rfl (List.append_nil _).symm nofun (fighter?_congr rfl rfl)
  have chosen : ∀ (intent : Option String) (b : Battle),
      b.Quiet (b.updateEnemy id fun e => { e with intent }) := fun _ b =>
    quiet_updateEnemy b id _ fun _ => rfl
  simp only [chooseIntent]
  split
  · exact rolled _
  · exact (rolled _).trans ((chosen _ _).trans (quiet_emit rfl _))

theorem pruneBuffs_quiet (id : FighterId) (b : Battle) : b.Quiet (b.pruneBuffs id) := by
  simp only [pruneBuffs]
  split
  · exact .refl b
  · rename_i f hf
    exact settle_quiet hf .idle (Ledger.wears_self f.buffs.entries)

theorem applyTick_quiet (id : FighterId) (b : Battle) (t : Tick) : b.Quiet (applyTick id b t) := by
  cases t with
  | heal _ x => exact heal_quiet _ _ _
  | damage _ x => exact hurt_quiet _ _ _

theorem endBuffs_quiet (id : FighterId) (b : Battle) : b.Quiet (b.endBuffs id) := by
  simp only [endBuffs]
  split
  · exact .refl b
  · exact (quiet_foldl (applyTick_quiet id) _ _).trans (pruneBuffs_quiet _ _)

theorem enemyRests_quiet (b : Battle) (id : FighterId) : b.Quiet (b.enemyRests id) := by
  simp only [enemyRests]
  split
  · exact (endBuffs_quiet _ _).trans (chooseIntent_quiet _ _)
  · exact endBuffs_quiet _ _

theorem discardHand_quiet (b : Battle) : b.Quiet b.discardHand := by
  have swept : b.Quiet (b.setPiles b.player.piles.discardHand.2 b.chance) :=
    quiet_aside [] rfl (List.append_nil _).symm nofun (fighter?_congr rfl rfl)
  simp only [discardHand]
  split
  · exact swept
  · exact swept.trans (quiet_emit rfl _)

theorem setPhase_quiet (phase : Phase) (b : Battle) : b.Quiet (b.setPhase phase) :=
  quiet_aside [.phaseChanged phase] rfl Array.toList_push (by simp [Event.queued?])
    (fighter?_congr rfl rfl)

theorem turnBegun_quiet (b : Battle) : b.Quiet b.turnBegun :=
  quiet_aside _ rfl b.events_turnBegun (by simp [Event.queued?]) (fighter?_congr rfl rfl)

theorem checkEnd_quiet (b : Battle) : b.Quiet b.checkEnd.2 := by
  simp only [checkEnd]
  split
  · exact .refl b
  · split
    · exact .refl b
    · rename_i o _
      exact quiet_aside _ rfl (b.events_ended o) (by simp [Event.queued?]) (fighter?_congr rfl rfl)

theorem hurtAll_quiet (targets : List FighterId) (x : Single) (b : Battle) :
    b.Quiet (b.hurtAll targets x) :=
  quiet_foldl (fun b t => hurt_quiet t x b) targets b

theorem land_quiet (b : Battle) (h : DelayedHit) : b.Quiet (b.land h) := by
  have hits : ∀ ts : List FighterId, b.Quiet
      ((b.emit (.delayedFired h.caster h.damage)).hurtAll ts h.damage) := fun ts =>
    (quiet_emit rfl b).trans (hurtAll_quiet ts h.damage _)
  simp only [land]
  split
  · split
    · exact .refl b
    · split
      · exact hits _
      · exact .refl b
  · split
    · exact hits _
    · exact hits _

theorem landAll_quiet (hits : List DelayedHit) (b : Battle) : b.Quiet (hits.foldl land b) :=
  quiet_foldl land_quiet hits b

end Battle
end CardBattle
