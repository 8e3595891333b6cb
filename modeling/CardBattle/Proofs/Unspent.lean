import CardBattle.Proofs.KillFlag
import CardBattle.Proofs.Reach

/-!
# CardBattle.Proofs.Unspent

An active swift is used up by the next card that is played, and by nothing else. Guards and
lifesteels are used up by hits, bad buffs are cleansed, inert ones are pruned; an active swift is
none of these. When swift is applied again, the entry keeps its reach and stays active.

* `Ledger.swift?`: the active swift of a ledger. `Ledger.takeSwift_spec` is how it is used up.
* `Ledger.Retains`: what leaves an active swift alone, and the kinds distinct.
* `Battle.Retains`: the same for all fighters; `Frame.execute_retains` is a single effect.
* `unspent_law`: the visits of a resolution.
-/

namespace CardBattle

namespace Ledger

/-! ## The active swift -/

/-- The reach of the active swift. -/
def swift? (l : Ledger) : Option SwiftReach := l.entries.findSome? reach?

theorem reach?_eq_some_iff {b : Buff} {r : SwiftReach} :
    reach? b = some r ↔ b.data = .swift r ∧ b.isActive = true := by
  simp only [reach?]
  split
  · rename_i reach data
    simp [data]
    tauto
  · rename_i other
    simp only [reduceCtorEq, false_iff, not_and]
    intro data
    exact absurd data (other r)

theorem kind_of_reach? {b : Buff} {r : SwiftReach} (h : reach? b = some r) : b.kind = .swift := by
  rw [Buff.kind, (reach?_eq_some_iff.mp h).1]
  rfl

theorem exists_reach? {b : Buff} (kind : b.kind = .swift) (active : b.isActive = true) :
    ∃ r, reach? b = some r := by
  cases data : b.data with
  | swift r => exact ⟨r, reach?_eq_some_iff.mpr ⟨data, active⟩⟩
  | _ => simp [Buff.kind, data, BuffData.kind] at kind

variable {l l' : Ledger} {r : SwiftReach}

/-- There is at most one entry that it can be read from. -/
theorem swift?_eq_some_iff (distinct : l.Distinct) :
    l.swift? = some r ↔ ∃ e ∈ l.entries, reach? e = some r := by
  constructor
  · exact List.exists_of_findSome?_eq_some
  · rintro ⟨e, he, reach⟩
    cases found : l.swift? with
    | none =>
      rw [swift?, List.findSome?_eq_none_iff] at found
      rw [found e he] at reach
      cases reach
    | some r' =>
      obtain ⟨e', he', reach'⟩ := List.exists_of_findSome?_eq_some found
      have kinds : e'.kind = e.kind := (kind_of_reach? reach').trans (kind_of_reach? reach).symm
      rw [List.inj_on_of_nodup_map distinct he' he kinds] at reach'
      exact reach'.symm.trans reach

theorem fst_takeSwiftFrom (bs : List Buff) : (takeSwiftFrom bs).1 = bs.findSome? reach? := by
  induction bs with
  | nil => rfl
  | cons b bs ih =>
    simp only [takeSwiftFrom, List.findSome?_cons]
    cases reach? b with
    | some r => rfl
    | none => exact ih

/-- Of distinct entries, all active ones but the swift stay. -/
theorem filter_takeSwiftFrom {bs : List Buff} (distinct : (bs.map Buff.kind).Nodup)
    (h : bs.findSome? reach? = some r) :
    (takeSwiftFrom bs).2.filter Buff.isActive =
      bs.filter fun e => e.isActive && e.kind != .swift := by
  induction bs with
  | nil => cases h
  | cons b bs ih =>
    obtain ⟨fresh, distinct⟩ := List.nodup_cons.mp distinct
    simp only [takeSwiftFrom]
    cases reach : reach? b with
    | some r' =>
      have swift := kind_of_reach? reach
      have others : ∀ e ∈ bs, e.isActive = (e.isActive && e.kind != .swift) := by
        intro e he
        have other : e.kind ≠ .swift := by
          intro same
          exact fresh (swift ▸ same ▸ List.mem_map_of_mem he)
        simp [other]
      simp [swift, List.filter_congr others]
    | none =>
      have idle : b.isActive = (b.isActive && b.kind != .swift) := by
        cases active : b.isActive with
        | false => rfl
        | true =>
          have other : b.kind ≠ .swift := by
            intro swift
            obtain ⟨r', some⟩ := exists_reach? swift active
            rw [reach] at some
            cases some
          simp [other]
      have rest : bs.findSome? reach? = some r := by simpa [reach] using h
      simp only [List.filter_cons, ← idle, ih distinct rest]

/-- An active swift is used up and leaves with the inert entries. -/
theorem takeSwift_of_swift? (distinct : l.Distinct) (h : l.swift? = some r) :
    l.takeSwift.1 = some r ∧
      l.takeSwift.2.prune.2.entries = l.entries.filter fun e => e.isActive && e.kind != .swift :=
  ⟨(fst_takeSwiftFrom l.entries).trans h, filter_takeSwiftFrom distinct h⟩

/-! ## What leaves it alone -/

/-- The kinds are still distinct, and an active swift is still there. -/
structure Retains (l l' : Ledger) : Prop where
  distinct : l'.Distinct
  swift : ∀ r, l.swift? = some r → l'.swift? = some r

theorem Retains.refl (distinct : l.Distinct) : l.Retains l := ⟨distinct, fun _ h => h⟩

/-- It is enough that an active entry stays that is a swift. -/
theorem retains_of_mem (distinct : l.Distinct) (distinct' : l'.Distinct)
    (stays : ∀ e ∈ l.entries, ∀ r, reach? e = some r → e ∈ l'.entries) : l.Retains l' where
  distinct := distinct'
  swift r h := by
    obtain ⟨e, he, reach⟩ := (swift?_eq_some_iff distinct).mp h
    exact (swift?_eq_some_iff distinct').mpr ⟨e, stays e he r reach, reach⟩

theorem mem_incomingFrom {bs : List Buff} {e : Buff} (he : e ∈ bs) (reach : reach? e = some r)
    (x : Single) : e ∈ (incomingFrom bs x).2 := by
  induction bs generalizing x with
  | nil => cases he
  | cons b bs ih =>
    simp only [incomingFrom]
    rcases List.mem_cons.mp he with rfl | he
    · have same : (meet e x).2 = e := by simp [meet, (reach?_eq_some_iff.mp reach).1]
      simp [same]
    · exact List.mem_cons_of_mem _ (ih he _)

theorem mem_record {e : Buff} (he : e ∈ l.entries) (reach : reach? e = some r) (lost : Int) :
    e ∈ (l.record lost).entries := by
  have same : recordIn lost e = e := by simp [recordIn, (reach?_eq_some_iff.mp reach).1]
  exact List.mem_map.mpr ⟨e, he, same⟩

theorem mem_prune {e : Buff} (he : e ∈ l.entries) (reach : reach? e = some r) :
    e ∈ l.prune.2.entries :=
  List.mem_filter.mpr ⟨he, (reach?_eq_some_iff.mp reach).2⟩

theorem mem_drainFrom {bs : List Buff} {e : Buff} (he : e ∈ bs) (reach : reach? e = some r) :
    e ∈ (drainFrom bs).2 := by
  induction bs with
  | nil => cases he
  | cons b bs ih =>
    simp only [drainFrom]
    cases drains : drainable? b with
    | some percent =>
      rcases List.mem_cons.mp he with rfl | he
      · simp [drainable?, (reach?_eq_some_iff.mp reach).1] at drains
      · exact List.mem_cons_of_mem _ he
    | none =>
      rcases List.mem_cons.mp he with rfl | he
      · exact List.mem_cons_self
      · exact List.mem_cons_of_mem _ (ih he)

theorem mem_cleanseFrom {bs : List Buff} {e : Buff} (he : e ∈ bs) (reach : reach? e = some r)
    (n : Nat) : e ∈ (cleanseFrom n bs).2 := by
  induction bs generalizing n with
  | nil => cases he
  | cons b bs ih =>
    cases n with
    | zero => exact he
    | succ n =>
      simp only [cleanseFrom]
      cases good : b.kind.isPositive with
      | true =>
        rcases List.mem_cons.mp he with rfl | he
        · exact List.mem_cons_self
        · exact List.mem_cons_of_mem _ (ih he _)
      | false =>
        rcases List.mem_cons.mp he with rfl | he
        · rw [kind_of_reach? reach] at good
          cases good
        · exact ih he _

theorem retains_drain (distinct : l.Distinct) : l.Retains l.drain.2.prune.2 :=
  retains_of_mem distinct (distinct_prune (distinct_of_faces (faces_drainFrom l.entries) distinct))
    fun _ he _ reach => mem_prune (mem_drainFrom he reach) reach

theorem retains_cleanse (distinct : l.Distinct) (n : Nat) : l.Retains (l.cleanse n).2 :=
  retains_of_mem distinct (distinct_cleanse distinct n) fun _ he _ reach => mem_cleanseFrom he reach n

/-! ## Another swift -/

theorem swift?_eq_bind (distinct : l.Distinct) : l.swift? = (l.entry? .swift).bind reach? := by
  apply Option.ext
  intro r
  rw [swift?_eq_some_iff distinct, Option.bind_eq_some_iff]
  constructor
  · rintro ⟨e, he, reach⟩
    have kind := kind_of_reach? reach
    cases found : l.entry? .swift with
    | none => exact absurd (kind ▸ List.mem_map_of_mem he) (entry?_eq_none_iff.mp found)
    | some e' =>
      obtain ⟨he', kind'⟩ := entry?_eq_some found
      rw [List.inj_on_of_nodup_map distinct he' he (kind'.trans kind.symm)]
      exact ⟨e, rfl, reach⟩
  · rintro ⟨e, found, reach⟩
    exact ⟨e, (entry?_eq_some found).1, reach⟩

theorem isActive_merge (e b : Buff) : (merge e b).isActive = (e.isActive || b.isActive) := by
  simp only [merge, longer, Buff.isActive, Buff.permanent]
  grind

theorem reach?_merge {e : Buff} (h : reach? e = some r) (b : Buff) :
    reach? (merge e b) = some r := by
  obtain ⟨data, active⟩ := reach?_eq_some_iff.mp h
  exact reach?_eq_some_iff.mpr ⟨data, by rw [isActive_merge, active, Bool.true_or]⟩

theorem retains_add (distinct : l.Distinct) (b : Buff) : l.Retains (l.add b).2 where
  distinct := distinct_add distinct b
  swift r h := by
    rw [swift?_eq_bind distinct, Option.bind_eq_some_iff] at h
    obtain ⟨e, found, reach⟩ := h
    rw [swift?_eq_bind (distinct_add distinct b)]
    by_cases same : b.kind = .swift
    · have joined := entry?_add_self distinct b
      rw [same, found] at joined
      rw [joined]
      exact reach?_merge reach b
    · rw [entry?_add_ne distinct b (Ne.symm same), found]
      exact reach

/-- A swift that is applied is active if its duration is not 0, whatever was there before. -/
theorem exists_swift?_add (distinct : l.Distinct) {b : Buff} (kind : b.kind = .swift)
    (active : b.isActive = true) : ∃ r, Ledger.swift? (l.add b).2 = some r := by
  have joined := entry?_add_self distinct b
  rw [kind] at joined
  rw [swift?_eq_bind (distinct_add distinct b), joined]
  cases found : l.entry? .swift with
  | none => exact exists_reach? kind active
  | some e =>
    have merged : (merge e b).kind = .swift := (entry?_eq_some found).2
    exact exists_reach? merged (by rw [isActive_merge, active, Bool.or_true])

end Ledger

open Ledger

/-- A hit prunes what is inert and uses up a guard. -/
theorem Fighter.retains_takeHit {f : Fighter} (distinct : f.buffs.Distinct) (x : Single) :
    f.buffs.Retains (f.takeHit x).2.2.buffs := by
  have distinct' : (f.takeHit x).2.2.buffs.Distinct := by
    obtain ⟨l, faces, _, after⟩ := f.buffs_takeHit x
    exact after ▸ distinct_prune (distinct_of_faces faces distinct)
  refine retains_of_mem distinct distinct' fun e he r reach => ?_
  have met : e ∈ (f.buffs.incoming x).2.entries := mem_incomingFrom he reach x
  have recorded : e ∈ (if 0 < (f.takeHit x).1.lost then
      (f.buffs.incoming x).2.record (f.takeHit x).1.lost
      else (f.buffs.incoming x).2).entries := by
    split
    · exact mem_record met reach _
    · exact met
  exact mem_prune recorded reach

namespace Battle

/-! ## All fighters -/

/-- The kinds in every ledger are distinct. That is so of all ledgers that operations have made
(`Ledger.Reached.distinct`). -/
def Distinct (b : Battle) : Prop := ∀ id f, b.fighter? id = some f → f.buffs.Distinct

/-- The active swift of a fighter. -/
def swift? (b : Battle) (id : FighterId) : Option SwiftReach :=
  (b.fighter? id).bind fun f => f.buffs.swift?

/-- From `b` to `b'` every active swift is retained. -/
structure Retains (b b' : Battle) : Prop where
  distinct : b.Distinct → b'.Distinct
  swift : b.Distinct → ∀ id r, b.swift? id = some r → b'.swift? id = some r

variable {b b₁ b' : Battle}

theorem Retains.refl (b : Battle) : b.Retains b := ⟨fun h => h, fun _ _ _ h => h⟩

theorem Retains.trans (h : b.Retains b₁) (h' : b₁.Retains b') : b.Retains b' where
  distinct apart := h'.distinct (h.distinct apart)
  swift apart id r found := h'.swift (h.distinct apart) id r (h.swift apart id r found)

theorem retains_of_fighters (same : ∀ id, b'.fighter? id = b.fighter? id) : b.Retains b' where
  distinct apart id f hf := apart id f (same id ▸ hf)
  swift _ id r found := by rwa [swift?, same]

/-- Changing one fighter. -/
theorem retains_setFighter {id : FighterId} {f f' : Fighter} (hf : b.fighter? id = some f)
    (h : f.buffs.Distinct → f.buffs.Retains f'.buffs) : b.Retains (b.setFighter id f') where
  distinct apart j g hg := by
    rw [fighter?_setFighter f' hf] at hg
    split at hg
    · cases hg
      exact (h (apart id f hf)).distinct
    · exact apart j g hg
  swift apart j r found := by
    rw [swift?, fighter?_setFighter f' hf]
    split
    · rename_i same
      rw [same, swift?, hf] at found
      exact (h (apart id f hf)).swift r found
    · exact found

/-- Telling changes no fighter. -/
theorem Retains.emit (h : b.Retains b') (e : Event) : b.Retains (b'.emit e) :=
  h.trans (retains_of_fighters fun _ => rfl)

theorem Retains.emitExpired (h : b.Retains b') (id : FighterId) (kinds : List BuffKind) :
    b.Retains (b'.emitExpired id kinds) :=
  h.trans (retains_of_fighters (fighter?_emitAll b' _))

variable (b)

theorem hurt_retains (id : FighterId) (x : Single) : b.Retains (b.hurt id x).2 := by
  unfold hurt
  split
  · exact .refl b
  · split
    · exact .refl b
    · rename_i f hf
      split
      · exact ((retains_setFighter hf (Fighter.retains_takeHit · x)).emit _).emitExpired _ _
      · exact .refl b

theorem heal_retains (id : FighterId) (x : Single) : b.Retains (b.heal id x).2 := by
  unfold heal
  split
  · exact .refl b
  · rename_i f hf
    split
    · have mended : b.Retains (b.setFighter id (f.mend x).2) :=
        retains_setFighter hf fun apart => .refl apart
      simp only
      split
      · exact mended.emit _
      · exact mended
    · exact .refl b

theorem healPercent_retains (id : FighterId) (x : Single) : b.Retains (b.healPercent id x) := by
  unfold healPercent
  split
  · exact .refl b
  · exact heal_retains b _ _

theorem drainLife_retains (id : FighterId) (lost : Int) : b.Retains (b.drainLife id lost) := by
  unfold drainLife
  split
  · exact .refl b
  · rename_i f hf
    split
    · exact .refl b
    · rename_i percent l drained
      have ledger : l = f.buffs.drain.2 := by rw [drained]
      have used : b.Retains (b.setFighter id { f with buffs := l.prune.2 }) :=
        retains_setFighter hf fun apart => ledger ▸ retains_drain apart
      exact (used.emitExpired _ _).trans (heal_retains _ _ _)

theorem strike_retains (attacker target : FighterId) (x : Single) :
    b.Retains (b.strike attacker target x).2 := by
  have drains : ∀ amount : Single, b.Retains
      (if 0 < (b.hurt target amount).1.lost && attacker != target then
        (b.hurt target amount).2.drainLife attacker (b.hurt target amount).1.lost
      else (b.hurt target amount).2) := by
    intro amount
    split
    · exact (hurt_retains b target amount).trans (drainLife_retains _ _ _)
    · exact hurt_retains b target amount
  exact drains _

theorem hurtSelf_retains (id : FighterId) (x : Single) : b.Retains (b.hurtSelf id x) := by
  unfold hurtSelf
  split
  · exact .refl b
  · exact hurt_retains b _ _

theorem cleanse_retains (id : FighterId) (n : Nat) : b.Retains (b.cleanse id n) := by
  unfold cleanse
  split
  · exact .refl b
  · rename_i f hf
    exact (retains_setFighter hf fun apart => retains_cleanse apart n).emitExpired _ _

theorem applyBuff_retains (buff : Buff) (id : FighterId) : b.Retains (applyBuff buff b id) := by
  unfold applyBuff
  split
  · exact .refl b
  · rename_i f hf
    exact (retains_setFighter hf fun apart => retains_add apart buff).emit _

theorem applyBuffs_retains (buff : Buff) (ids : List FighterId) :
    b.Retains (ids.foldl (applyBuff buff) b) := by
  induction ids generalizing b with
  | nil => exact .refl b
  | cons id ids ih => exact (applyBuff_retains b buff id).trans (ih _)

/-- A change of another part of a battle. -/
theorem Alters.retains {b b' : Battle} {who : FighterId → Prop} {part : Effect.Part}
    (h : b.Alters who part b') (other : part ≠ .fighters) : b.Retains b' := by
  cases h with
  | fighters _ => exact absurd rfl other
  | _ => exact retains_of_fighters (fighter?_congr rfl rfl)

end Battle

/-! ## Resolutions -/

open Battle

theorem strikes_retains (caster : FighterId) (x : Single) (targets : List FighterId)
    (p : Progress) :
    p.battle.Retains (targets.foldl (Progress.strike caster x) p).battle := by
  induction targets generalizing p with
  | nil => exact .refl _
  | cons t targets ih => exact (strike_retains p.battle caster t x).trans (ih (p.strike caster x t))

/-- No effect uses a swift up. -/
theorem Frame.execute_retains (frame : Frame) (p : Progress) (e : Effect) :
    p.battle.Retains (frame.execute mute p e).battle := by
  have altered := frame.execute_alters p e
  cases e with
  | damageTarget x =>
    simp only [execute]
    split
    · exact .refl _
    · exact strike_retains _ _ _ _
  | damageOpponents x => exact strikes_retains _ _ _ _
  | damageSelf x => exact hurtSelf_retains _ _ _
  | healSelf x => exact heal_retains _ _ _
  | healSelfPercent x => exact healPercent_retains _ _ _
  | cleanseSelf n => exact cleanse_retains _ _ _
  | applyBuff scope spec =>
    simp only [execute]
    split
    · exact .refl _
    · exact applyBuffs_retains _ _ _
  | _ => exact altered.retains (by simp [Effect.part])

theorem Visit.retains (v : Visit) : v.before.battle.Retains v.after.battle := by
  rw [Visit.after, Frame.runSlot_eq_execute]
  cases v.frame.effect? v.before v.slot with
  | none => exact .refl _
  | some e => exact v.frame.execute_retains v.before e

/-- From `p` to `q` every active swift is retained, and so it is up to each visit and from it on. -/
structure Unspent (p : Progress) (vs : List Visit) (q : Progress) : Prop where
  whole : p.battle.Retains q.battle
  visits : ∀ v ∈ vs, p.battle.Retains v.before.battle ∧ v.after.battle.Retains q.battle

namespace Unspent

variable {p p₁ q : Progress} {vs vs₁ : List Visit}

theorem still (h : p.battle.Retains q.battle) : Unspent p [] q := ⟨h, List.forall_mem_nil _⟩

theorem append (h : Unspent p vs p₁) (h' : Unspent p₁ vs₁ q) : Unspent p (vs ++ vs₁) q where
  whole := h.whole.trans h'.whole
  visits v hv := by
    rcases List.mem_append.mp hv with hv | hv
    · obtain ⟨before, after⟩ := h.visits v hv
      exact ⟨before, after.trans h'.whole⟩
    · obtain ⟨before, after⟩ := h'.visits v hv
      exact ⟨h.whole.trans before, after⟩

end Unspent

theorem unspent_law : VisitLaw Unspent where
  refl _ := .still (.refl _)
  append := .append
  visit v := ⟨v.retains, List.forall_mem_singleton.mpr ⟨.refl _, .refl _⟩⟩
  paid pay := .still ((pay?_alters pay).retains (by decide))
  told _ := .still ((Battle.Retains.refl _).emit _)

end CardBattle
