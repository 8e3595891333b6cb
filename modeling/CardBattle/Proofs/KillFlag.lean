import CardBattle.Proofs.EchoBound
import CardBattle.Proofs.Falls

/-!
# CardBattle.Proofs.KillFlag

What the kill flag of a resolution remembers. The slots of a resolution are visited one after the
other, those of echoed cards and of repetitions included. Between two visits nobody falls and the
flag stays as it is; a visit raises it if its slot fells somebody, unless the slot hits its own
caster. So the flag tells of every fall but those that casters bring on themselves.

* `Battle.Tells`: who falls between two battles.
* `Visit`, `Visit.flags`, `Visit.ownFall`: a slot at its moment, and what it does to the flag.
* `Frame.cardVisits`, `Battle.copyVisits`, `Battle.skillVisits`: all visits of a resolution.
* `VisitLaw`: what has to be checked for single visits, payments and echoes. `VisitLaw.card` and
  `VisitLaw.copies` are what follows for cards, by induction on the links of the chain.
* `Marks`: visits are all that touches the flag and fells; `resolveCard_marks` and
  `resolveSkill_marks` say so of whole resolutions.
* `Battle.killFlag_settled`: what the flag is worth for every card and every skill.
-/

namespace CardBattle

namespace Battle

/-! ## Who falls -/

def falls (b : Battle) : List FighterId := Event.falls b.events.toList

/-- Between two battles the log has grown, and these fighters have fallen. -/
def Tells (b : Battle) (ts : List FighterId) (b' : Battle) : Prop :=
  ∃ es, b'.events.toList = b.events.toList ++ es ∧ Event.falls es = ts

/-- Between two battles a hit has felled a fighter. -/
def Felled (b b' : Battle) : Prop :=
  ∃ es, b'.events.toList = b.events.toList ++ es ∧
    ∃ id report, .damaged id report ∈ es ∧ report.killed = true

section

variable {b b₁ b' : Battle} {ts ts₁ : List FighterId}

theorem Tells.refl (b : Battle) : b.Tells [] b := ⟨[], by simp, rfl⟩

theorem Tells.trans (h : b.Tells ts b₁) (h' : b₁.Tells ts₁ b') : b.Tells (ts ++ ts₁) b' := by
  obtain ⟨es, events, rfl⟩ := h
  obtain ⟨es₁, events₁, rfl⟩ := h'
  exact ⟨es ++ es₁, by rw [events₁, events, List.append_assoc], Event.falls_append _ _⟩

theorem tells_of_acts (acts : Acts b b') (h : b'.falls = b.falls ++ ts) : b.Tells ts b' := by
  obtain ⟨es, events⟩ := acts.lasting.told
  rw [Battle.falls, ← events, Event.falls_append] at h
  exact ⟨es, events.symm, List.append_cancel_left h⟩

theorem Tells.felled_iff (h : b.Tells ts b') : b.Felled b' ↔ ts ≠ [] := by
  obtain ⟨es, events, rfl⟩ := h
  constructor
  · rintro ⟨es', events', id, report, told, killed⟩ none
    have same : es' = es := List.append_cancel_left (events'.symm.trans events)
    have fallen : id ∈ Event.falls es :=
      Event.mem_falls.mpr ⟨_, same ▸ told, by simp [Event.felled?, killed]⟩
    rw [none] at fallen
    cases fallen
  · intro some
    obtain ⟨id, fallen⟩ := List.exists_mem_of_ne_nil _ some
    obtain ⟨e, told, felled⟩ := Event.mem_falls.mp fallen
    cases e with
    | damaged t report =>
      refine ⟨es, events, t, report, told, ?_⟩
      simp only [Event.felled?] at felled
      split at felled
      · assumption
      · cases felled
    | _ => cases felled

end

section

variable (b : Battle)

theorem falls_emit (e : Event) : (b.emit e).falls = b.falls ++ e.felled?.toList := by
  cases h : e.felled? <;> simp [falls, Event.falls, emit, h]

theorem falls_emit_of_felled? {e : Event} (h : e.felled? = none) :
    (b.emit e).falls = b.falls := by
  simp [falls_emit, h]

@[simp] theorem falls_emitExpired (id : FighterId) (kinds : List BuffKind) :
    (b.emitExpired id kinds).falls = b.falls := by
  rw [falls, emitExpired, events_emitAll, Event.falls_append,
    Event.falls_eq_nil (Event.touched?_expired id kinds), List.append_nil, falls]

@[simp] theorem falls_setFighter (id : FighterId) (f : Fighter) :
    (b.setFighter id f).falls = b.falls := by
  cases id <;> rfl

/-! ## What fells nobody -/

theorem falls_heal (id : FighterId) (x : Single) : (b.heal id x).2.falls = b.falls := by
  simp only [heal]
  split
  · rfl
  · split
    · split
      · rw [falls_emit_of_felled? _ rfl, falls_setFighter]
      · exact falls_setFighter _ _ _
    · rfl

theorem falls_healPercent (id : FighterId) (x : Single) : (b.healPercent id x).falls = b.falls := by
  simp only [healPercent]
  split
  · rfl
  · exact falls_heal _ _ _

theorem falls_drainLife (id : FighterId) (lost : Int) :
    (b.drainLife id lost).falls = b.falls := by
  simp only [drainLife]
  split
  · rfl
  · split
    · rfl
    · rw [falls_heal]
      simp

theorem falls_cleanse (id : FighterId) (n : Nat) : (b.cleanse id n).falls = b.falls := by
  simp only [cleanse]
  split <;> simp

theorem falls_applyBuff (buff : Buff) (id : FighterId) : (applyBuff buff b id).falls = b.falls := by
  simp only [applyBuff]
  split
  · rfl
  · rw [falls_emit_of_felled? _ rfl, falls_setFighter]

theorem falls_applyBuffs (buff : Buff) (ids : List FighterId) :
    (ids.foldl (applyBuff buff) b).falls = b.falls := by
  induction ids generalizing b with
  | nil => rfl
  | cons id ids ih => exact (ih _).trans (falls_applyBuff b buff id)

theorem falls_reduceCost (copy : Nat) (amount : Int) :
    (b.reduceCost copy amount).falls = b.falls := by
  simp only [reduceCost]
  split
  · rfl
  · exact falls_emit_of_felled? _ rfl

theorem falls_drawCards (n : Nat) : (b.drawCards n).falls = b.falls := by
  simp only [drawCards]
  generalize b.player.piles.draw n b.chance = r
  obtain ⟨⟨ids, reshuffled⟩, p, s⟩ := r
  cases reshuffled <;> cases ids <;> simp [falls, Event.falls, emit, Event.felled?, setPiles]

theorem falls_destroyCards (pile : Pile) (n : Nat) : (b.destroyCards pile n).falls = b.falls := by
  simp only [destroyCards]
  generalize b.player.piles.destroy pile n b.chance = r
  obtain ⟨ids, p, s⟩ := r
  cases ids <;> simp [falls, Event.falls, emit, Event.felled?, setPiles]

theorem falls_enqueue (h : DelayedHit) : (b.enqueue h).falls = b.falls :=
  falls_emit_of_felled? _ rfl

theorem falls_pay? {id : FighterId} {meter : Meter} {cost : Int} {b' : Battle}
    (h : b.pay? id meter cost = some b') : b'.falls = b.falls := by
  simp only [pay?] at h
  split at h
  · cases h
  · split at h
    all_goals
      split at h
      · cases h
      · cases h
        exact falls_emit_of_felled? _ rfl

theorem falls_takeSwift : b.takeSwift.2.falls = b.falls := by
  simp only [takeSwift]
  split <;> simp

theorem falls_applyShifts (card : Card) : (applyShifts card b).falls = b.falls := by
  simp only [applyShifts]
  split
  · rfl
  · exact falls_emit_of_felled? _ rfl

/-! ## Hits -/

theorem falls_hurt (id : FighterId) (x : Single) :
    (b.hurt id x).2.falls = b.falls ++ if (b.hurt id x).1.killed then [id] else [] := by
  simp only [hurt]
  split
  · simp
  · split
    · simp
    · rename_i f _
      split
      · simp only [falls_emitExpired, falls_emit, falls_setFighter, Event.felled?]
        split <;> simp_all
      · simp

theorem falls_strike (attacker target : FighterId) (x : Single) :
    (b.strike attacker target x).2.falls =
      b.falls ++ if (b.strike attacker target x).1.killed then [target] else [] := by
  simp only [strike]
  split
  · rw [falls_drainLife]
    exact falls_hurt _ _ _
  · exact falls_hurt _ _ _

end

end Battle

/-! ## Visits -/

/-- A slot on which a resolution comes, with what has happened so far. -/
structure Visit where
  frame : Frame
  slot : Slot
  before : Progress

def Effect.hitsCaster : Effect → Bool
  | .damageSelf _ => true
  | _ => false

namespace Visit

open CardBattle.Frame

/-- The end of the slot. A slot that asks for an echo does nothing by itself. -/
def after (v : Visit) : Progress := v.frame.runSlot mute v.before v.slot

/-- The fighters that the slot fells by itself. -/
def felled (v : Visit) : List FighterId :=
  v.after.battle.falls.drop v.before.battle.falls.length

def hitsCaster (v : Visit) : Bool :=
  ((v.frame.effect? v.before v.slot).map Effect.hitsCaster).getD false

/-- The flag remembers the slot: it fells somebody and does not hit its own caster. -/
def flags (v : Visit) : Bool := !v.hitsCaster && !v.felled.isEmpty

/-- A caster falls to its own slot. -/
def ownFall (v : Visit) : Bool := v.hitsCaster && !v.felled.isEmpty

/-- What a requirement of the slot reads for the flag. -/
def killOccurred (v : Visit) : Int :=
  (Subjects.of v.before.battle v.frame.caster v.before.killed).value .killOccurred

theorem killOccurred_eq (v : Visit) : v.killOccurred = if v.before.killed then 1 else 0 := by
  cases h : v.frame.caster <;> simp [killOccurred, Subjects.of, Subjects.value, h]

end Visit

namespace Frame

open Battle

theorem strikes_flag (caster : FighterId) (x : Single) (targets : List FighterId) (p : Progress) :
    ∃ ts, (targets.foldl (Progress.strike caster x) p).battle.falls = p.battle.falls ++ ts ∧
      (targets.foldl (Progress.strike caster x) p).killed = (p.killed || !ts.isEmpty) := by
  induction targets generalizing p with
  | nil => exact ⟨[], by simp, by simp⟩
  | cons t targets ih =>
    obtain ⟨ts, falls, killed⟩ := ih (p.strike caster x t)
    have first : (p.strike caster x t).battle.falls = _ := falls_strike p.battle caster t x
    refine ⟨(if (p.battle.strike caster t x).1.killed then [t] else []) ++ ts, ?_, ?_⟩
    · rw [List.foldl_cons, falls, first, List.append_assoc]
    · rw [List.foldl_cons, killed, Progress.strike]
      cases fatal : (p.battle.strike caster t x).1.killed <;> simp [fatal]

/-- What an effect fells, and what the flag remembers of it. -/
theorem execute_flag (frame : Frame) (p : Progress) (e : Effect) :
    ∃ ts, (frame.execute mute p e).battle.falls = p.battle.falls ++ ts ∧
      (frame.execute mute p e).killed = (p.killed || (!e.hitsCaster && !ts.isEmpty)) := by
  have gentle : ∀ q : Progress, q.battle.falls = p.battle.falls → q.killed = p.killed →
      ∃ ts, q.battle.falls = p.battle.falls ++ ts ∧
        q.killed = (p.killed || (!e.hitsCaster && !ts.isEmpty)) := by
    intro q falls killed
    exact ⟨[], by simpa using falls, by simpa using killed⟩
  cases e with
  | damageTarget x =>
    simp only [execute]
    split
    · exact gentle p rfl rfl
    · exact strikes_flag _ _ [_] _
  | damageOpponents x => exact strikes_flag _ _ _ _
  | damageSelf x =>
    simp only [execute, Progress.map, hurtSelf]
    split
    · exact gentle p rfl rfl
    · exact ⟨_, falls_hurt _ _ _, by simp [Effect.hitsCaster]⟩
  | healSelf x => exact gentle _ (falls_heal _ _ _) rfl
  | healSelfPercent x => exact gentle _ (falls_healPercent _ _ _) rfl
  | shiftGauge gauge delta => exact gentle _ (falls_emit_of_felled? _ rfl) rfl
  | gainAction n =>
    simp only [execute]
    split
    · exact gentle p rfl rfl
    · exact gentle _ (falls_emit_of_felled? _ rfl) rfl
  | reduceCost n =>
    simp only [execute]
    split
    · exact gentle p rfl rfl
    · exact gentle _ (falls_reduceCost _ _ _) rfl
  | drawCards n => exact gentle _ (falls_drawCards _ _) rfl
  | burn pile n => exact gentle _ (falls_destroyCards _ _ _) rfl
  | cleanseSelf n => exact gentle _ (falls_cleanse _ _ _) rfl
  | applyBuff scope spec =>
    simp only [execute]
    split
    · exact gentle p rfl rfl
    · exact gentle _ (falls_applyBuffs _ _ _) rfl
  | castMore side distance =>
    have still : frame.execute mute p (.castMore side distance) = p := by
      simp only [execute, castMore]
      split
      · rfl
      · split <;> rfl
    rw [still]
    exact gentle p rfl rfl
  | delay mode x turns =>
    simp only [execute]
    split
    · exact gentle p rfl rfl
    · exact gentle _ (falls_enqueue _ _) rfl
  | spendRepeat _ _ _ => exact gentle p rfl rfl

end Frame

namespace Visit

open CardBattle.Frame Battle

variable (v : Visit)

theorem flag_spec :
    v.after.battle.falls = v.before.battle.falls ++ v.felled ∧
      v.after.killed = (v.before.killed || v.flags) := by
  have spec : ∃ ts, v.after.battle.falls = v.before.battle.falls ++ ts ∧
      v.after.killed = (v.before.killed || (!v.hitsCaster && !ts.isEmpty)) := by
    rw [after, runSlot_eq_execute, hitsCaster]
    cases v.frame.effect? v.before v.slot with
    | none => exact ⟨[], by simp, by simp⟩
    | some e => exact execute_flag v.frame v.before e
  obtain ⟨ts, falls, killed⟩ := spec
  have felled : v.felled = ts := by rw [Visit.felled, falls, List.drop_left]
  rw [flags, felled]
  exact ⟨falls, killed⟩

theorem tells : v.before.battle.Tells v.felled v.after.battle :=
  tells_of_acts (runSlot_deeds v.frame v.before v.slot).acts v.flag_spec.1

theorem flags_iff {v : Visit} (own : v.ownFall = false) : v.flags = true ↔ v.felled ≠ [] := by
  simp only [ownFall, flags] at own ⊢
  cases hits : v.hitsCaster <;> simp_all

end Visit

/-! ## The visits of a resolution -/

namespace Frame

/-- The visits on the way of an echo. -/
abbrev Trace := Frame → Nat → Progress → List Visit

variable (echo : Echo) (trace : Trace)

def slotVisits (frame : Frame) (p : Progress) (s : Slot) : List Visit :=
  ⟨frame, s, p⟩ ::
    match frame.call? p s with
    | none => []
    | some (_, place) => trace frame place p

def slotsVisits (frame : Frame) : List Slot → Progress → List Visit
  | [], _ => []
  | s :: ss, p => frame.slotVisits trace p s ++ slotsVisits frame ss (frame.runSlot echo p s)

def repeatsVisits (frame : Frame) (ss : List Slot) (meter : Meter) (cost : Int) :
    Nat → Progress → List Visit
  | 0, _ => []
  | n + 1, p =>
    match p.battle.pay? frame.caster meter cost with
    | none => []
    | some b =>
      frame.slotsVisits echo trace ss { p with battle := b } ++
        repeatsVisits frame ss meter cost n (frame.runSlots echo ss { p with battle := b })

def repeatSlotVisits (frame : Frame) (s : Slot) (rest : List Slot) (p : Progress) : List Visit :=
  ⟨frame, s, p⟩ ::
    match frame.effect? p s with
    | some (.spendRepeat meter cost budget) =>
      frame.repeatsVisits echo trace rest meter cost (repeatBound cost budget) p
    | _ => []

/-- The slots of a card, in the order in which its resolution comes on them. -/
def cardVisits (frame : Frame) (p : Progress) : List Visit :=
  frame.slotsVisits echo trace frame.plainSlots p ++
    match frame.repeatSlot? with
    | none => []
    | some (s, rest) =>
      frame.repeatSlotVisits echo trace s rest (frame.runSlots echo frame.plainSlots p)

/-- The slots of an echoed card, with so many links of the chain left. -/
def echoVisits : Nat → Trace
  | 0, _, _, _ => []
  | links + 1, frame, place, p =>
    match p.battle.player.piles.hand[place]? with
    | none => []
    | some c =>
      (frame.ofEcho place c).cardVisits (Frame.echo links) (echoVisits links)
        (p.map fun b => b.emit (.cardEchoed c.id c.card.id))

end Frame

namespace Battle

open CardBattle.Frame

def copiesVisits (frame : Frame) : List Nat → Progress → List Visit
  | [], _ => []
  | id :: ids, p =>
    (match p.battle.player.piles.handPlace? id with
      | none => []
      | some place => echoVisits p.battle.settings.maxChainDepth frame place p) ++
      copiesVisits frame ids (echoCopy frame p id)

/-- All slots on which the resolution of a played copy comes: those of its card, then those of the
copies that swift reaches. -/
def copyVisits (b : Battle) (c : PlayedCopy) (target : Option FighterId) : List Visit :=
  let (reach, b) := b.takeSwift
  let frame := c.frame target
  let links := b.settings.maxChainDepth
  let p := frame.runCard (Frame.echo links) { battle := b, killed := false }
  let p := p.map (applyShifts c.card)
  frame.cardVisits (Frame.echo links) (echoVisits links) { battle := b, killed := false } ++
    copiesVisits frame (reachedCopies c reach p.battle) p

def skillVisits (b : Battle) (enemy : FighterId) (skill : Skill) (attack : Int) : List Visit :=
  let frame : Frame := { caster := enemy, target := some .player, slots := skill.slots attack }
  let links := b.settings.maxChainDepth
  frame.cardVisits (Frame.echo links) (echoVisits links) { battle := b, killed := false }

end Battle

/-! ## Laws of visits -/

/-- What a relation of states and the visits between them has to satisfy to hold of whole
resolutions. -/
structure VisitLaw (M : Progress → List Visit → Progress → Prop) : Prop where
  refl (p : Progress) : M p [] p
  append {p p₁ q : Progress} {vs vs₁ : List Visit} : M p vs p₁ → M p₁ vs₁ q → M p (vs ++ vs₁) q
  visit (v : Visit) : M v.before [v] v.after
  paid {p : Progress} {caster : FighterId} {meter : Meter} {cost : Int} {b : Battle} :
    p.battle.pay? caster meter cost = some b → M p [] { p with battle := b }
  told {p : Progress} {place : Nat} {c : CardCopy} :
    p.battle.player.piles.hand[place]? = some c →
      M p [] (p.map fun b => b.emit (.cardEchoed c.id c.card.id))

namespace Frame

theorem runSlot_of_call? {frame : Frame} {p : Progress} {s : Slot} {cue : Cue} {place : Nat}
    (h : frame.call? p s = some (cue, place)) : frame.runSlot mute p s = p := by
  rw [runSlot_eq, h]
  rfl

theorem kind_of_repeatSlot? {frame : Frame} {s : Slot} {rest : List Slot}
    (h : frame.repeatSlot? = some (s, rest)) : s.kind = .spendRepeat := by
  have first := List.head?_dropWhile_not (fun s => !repeats s) frame.slots
  simp only [repeatSlot?] at h
  split at h
  · cases h
  · rename_i eq
    cases h
    rw [eq] at first
    simpa [repeats] using first

/-- The slot that repeats does nothing by itself. -/
theorem runSlot_of_repeatSlot? {frame : Frame} {s : Slot} {rest : List Slot}
    (h : frame.repeatSlot? = some (s, rest)) (p : Progress) : frame.runSlot mute p s = p := by
  simp only [runSlot, kind_of_repeatSlot? h]
  split
  · rfl
  · split
    · split
      · rename_i effect read
        obtain ⟨meter, cost, budget, rfl, _⟩ := Effect.spendRepeat_of_read read
        rfl
      · rfl
      · rfl
    · rfl

end Frame

namespace VisitLaw

open CardBattle.Frame Battle

variable {M : Progress → List Visit → Progress → Prop}

/-- What comes before the first visit. -/
theorem skip (law : VisitLaw M) {p p₁ q : Progress} {vs : List Visit} (h : M p [] p₁)
    (h' : M p₁ vs q) : M p vs q := by
  have whole := law.append h h'
  rwa [List.nil_append] at whole

section

variable {echo : Echo} {trace : Trace} (law : VisitLaw M)
  (follows : ∀ frame place p, M p (trace frame place p) (echo frame place p))

include law follows

theorem slot (frame : Frame) (p : Progress) (s : Slot) :
    M p (frame.slotVisits trace p s) (frame.runSlot echo p s) := by
  rw [runSlot_eq, slotVisits]
  have visit := law.visit ⟨frame, s, p⟩
  cases call : frame.call? p s with
  | none => exact visit
  | some found =>
    obtain ⟨cue, place⟩ := found
    rw [Visit.after, runSlot_of_call? call] at visit
    exact law.append visit (follows frame place p)

theorem slots (frame : Frame) (ss : List Slot) (p : Progress) :
    M p (frame.slotsVisits echo trace ss p) (frame.runSlots echo ss p) := by
  induction ss generalizing p with
  | nil => exact law.refl p
  | cons s ss ih => exact law.append (law.slot follows frame p s) (ih _)

theorem repeats (frame : Frame) (ss : List Slot) (meter : Meter) (cost : Int) (n : Nat)
    (p : Progress) :
    M p (frame.repeatsVisits echo trace ss meter cost n p)
      (frame.runRepeats echo ss meter cost n p) := by
  induction n generalizing p with
  | zero => exact law.refl p
  | succ n ih =>
    simp only [repeatsVisits, runRepeats]
    cases pay : p.battle.pay? frame.caster meter cost with
    | none => exact law.refl p
    | some b =>
      exact law.skip (law.paid pay) (law.append (law.slots follows frame ss _) (ih _))

theorem card (frame : Frame) (p : Progress) :
    M p (frame.cardVisits echo trace p) (frame.runCard echo p) := by
  simp only [cardVisits, runCard]
  refine law.append (law.slots follows frame _ p) ?_
  cases slot : frame.repeatSlot? with
  | none => exact law.refl _
  | some found =>
    obtain ⟨s, rest⟩ := found
    have visit := law.visit ⟨frame, s, frame.runSlots echo frame.plainSlots p⟩
    rw [Visit.after, runSlot_of_repeatSlot? slot] at visit
    simp only [repeatSlotVisits]
    rw [runRepeatSlot_eq]
    refine law.append visit ?_
    cases frame.effect? (frame.runSlots echo frame.plainSlots p) s with
    | none => exact law.refl _
    | some effect =>
      cases effect with
      | spendRepeat meter cost budget => exact law.repeats follows frame rest _ _ _ _
      | _ => exact law.refl _

end

/-- By induction on the links of the chain that are left. -/
theorem echo (law : VisitLaw M) (links : Nat) (frame : Frame) (place : Nat) (p : Progress) :
    M p (echoVisits links frame place p) (Frame.echo links frame place p) := by
  induction links generalizing frame place p with
  | zero => exact law.refl p
  | succ links ih =>
    simp only [echoVisits, Frame.echo]
    cases held : p.battle.player.piles.hand[place]? with
    | none => exact law.refl p
    | some c => exact law.skip (law.told held) (law.card ih _ _)

theorem copies (law : VisitLaw M) (frame : Frame) (ids : List Nat) (p : Progress) :
    M p (copiesVisits frame ids p) (ids.foldl (echoCopy frame) p) := by
  induction ids generalizing p with
  | nil => exact law.refl p
  | cons id ids ih =>
    refine law.append ?_ (ih _)
    simp only [echoCopy]
    cases p.battle.player.piles.handPlace? id with
    | none => exact law.refl p
    | some place => exact law.echo _ frame place p

/-- A played copy, once swift has been used up. Between its card and the copies that swift reaches
the gauges shift. -/
theorem played (law : VisitLaw M) (shifted : ∀ card p, M p [] (p.map (applyShifts card)))
    (b : Battle) (c : PlayedCopy) (target : Option FighterId) :
    M { battle := b.takeSwift.2, killed := false } (b.copyVisits c target)
      { battle := (b.resolveCard c target).2, killed := (b.resolveCard c target).1 } := by
  have card := law.card (law.echo b.takeSwift.2.settings.maxChainDepth) (c.frame target)
    { battle := b.takeSwift.2, killed := false }
  exact law.append card (law.skip (shifted c.card _) (law.copies (c.frame target) _ _))

end VisitLaw

/-! ## Between the visits -/

/-- Nobody falls, and the flag stays as it is. -/
structure Progress.Calm (p q : Progress) : Prop where
  killed : q.killed = p.killed
  tells : p.battle.Tells [] q.battle

theorem Progress.Calm.refl (p : Progress) : p.Calm p := ⟨rfl, .refl _⟩

theorem Progress.Calm.trans {p p₁ q : Progress} (h : p.Calm p₁) (h' : p₁.Calm q) : p.Calm q :=
  ⟨h'.killed.trans h.killed, h.tells.trans h'.tells⟩

/-- From `p` to `q` it is calm, except for these visits. -/
inductive Marks : Progress → List Visit → Progress → Prop where
  | calm {p q : Progress} (h : p.Calm q) : Marks p [] q
  | visit {p q : Progress} {v : Visit} {vs : List Visit} (h : p.Calm v.before)
      (rest : Marks v.after vs q) : Marks p (v :: vs) q

namespace Marks

variable {p p₁ q : Progress} {vs vs₁ : List Visit}

theorem refl (p : Progress) : Marks p [] p := .calm (.refl p)

theorem calm_append (h : p.Calm p₁) (h' : Marks p₁ vs q) : Marks p vs q := by
  cases h' with
  | calm h' => exact .calm (h.trans h')
  | visit h' rest => exact .visit (h.trans h') rest

theorem append (h : Marks p vs p₁) (h' : Marks p₁ vs₁ q) : Marks p (vs ++ vs₁) q := by
  induction h with
  | calm h => exact calm_append h h'
  | visit h _ ih => exact .visit h (ih h')

theorem killed (h : Marks p vs q) : q.killed = (p.killed || vs.any Visit.flags) := by
  induction h with
  | calm h => simp [h.killed]
  | @visit p q v vs h _ ih => rw [ih, v.flag_spec.2, h.killed, List.any_cons, Bool.or_assoc]

theorem tells (h : Marks p vs q) : p.battle.Tells (vs.flatMap Visit.felled) q.battle := by
  induction h with
  | calm h => exact h.tells
  | @visit p q v vs h _ ih => exact (h.tells.trans v.tells).trans ih

/-- What has happened at a visit are the visits before it. -/
theorem before {before after : List Visit} {v : Visit} (h : Marks p (before ++ v :: after) q) :
    Marks p before v.before := by
  induction before generalizing p with
  | nil =>
    cases h with
    | visit h _ => exact .calm h
  | cons u us ih =>
    cases h with
    | visit h rest => exact .visit h (ih rest)

end Marks

theorem marks_law : VisitLaw Marks where
  refl := .refl
  append := .append
  visit v := .visit (.refl _) (.refl _)
  paid pay := by
    have same := Battle.falls_pay? _ pay
    exact .calm ⟨rfl, Battle.tells_of_acts (Battle.pay?_acts pay) (by simp [same])⟩
  told held :=
    .calm ⟨rfl, Battle.tells_of_acts (.single (.echo held))
      ((Battle.falls_emit_of_felled? _ rfl).trans (List.append_nil _).symm)⟩

namespace Battle

open CardBattle.Frame

theorem resolveCard_marks (b : Battle) (c : PlayedCopy) (target : Option FighterId) :
    Marks { battle := b, killed := false } (b.copyVisits c target)
      { battle := (b.resolveCard c target).2, killed := (b.resolveCard c target).1 } := by
  have swift : Progress.Calm { battle := b, killed := false }
      { battle := b.takeSwift.2, killed := false } :=
    ⟨rfl, tells_of_acts (takeSwift_deeds b).acts (by simp [falls_takeSwift])⟩
  have shifted : ∀ (card : Card) (p : Progress), p.Calm (p.map (applyShifts card)) :=
    fun card p =>
      ⟨rfl, tells_of_acts (applyShifts_deeds card p.battle).acts
        ((falls_applyShifts p.battle card).trans (List.append_nil _).symm)⟩
  exact .calm_append swift (marks_law.played (fun card p => .calm (shifted card p)) b c target)

theorem resolveSkill_marks (b : Battle) (enemy : FighterId) (skill : Skill) (attack : Int) :
    Marks { battle := b, killed := false } (b.skillVisits enemy skill attack)
      { battle := (b.resolveSkill enemy skill attack).2
        killed := (b.resolveSkill enemy skill attack).1 } :=
  marks_law.card (marks_law.echo _) _ _

/-! ## The flag -/

/-- What the flag of a resolution is worth: as what it is answered, and as what the slots on the way
read it. -/
structure KillFlag (b : Battle) (visits : List Visit) (killed : Bool) (b' : Battle) : Prop where
  /-- The slots raise it that fell somebody, unless they hit their own caster. -/
  answer : killed = visits.any Visit.flags
  reads : ∀ before v after, visits = before ++ v :: after →
    v.killOccurred = if before.any Visit.flags then 1 else 0
  /-- As long as no caster falls to its own slot, it tells whether anybody has fallen. -/
  answer_iff : (∀ v ∈ visits, v.ownFall = false) → (killed = true ↔ b.Felled b')
  reads_iff : ∀ before v after, visits = before ++ v :: after →
    (∀ u ∈ before, u.ownFall = false) → (v.killOccurred = 1 ↔ b.Felled v.before.battle)

theorem killFlag_of_marks {b b' : Battle} {visits : List Visit} {killed : Bool}
    (h : Marks { battle := b, killed := false } visits { battle := b', killed }) :
    b.KillFlag visits killed b' := by
  have flag : ∀ {p : Progress} {vs : List Visit}, Marks { battle := b, killed := false } vs p →
      p.killed = vs.any Visit.flags := fun h => by simpa using h.killed
  have exact : ∀ {p : Progress} {vs : List Visit}, Marks { battle := b, killed := false } vs p →
      (∀ v ∈ vs, v.ownFall = false) → (vs.any Visit.flags = true ↔ b.Felled p.battle) := by
    intro p vs h own
    rw [h.tells.felled_iff, Ne, List.flatMap_eq_nil_iff, List.any_eq_true]
    simp only [not_forall, exists_prop]
    exact exists_congr fun v => and_congr_right fun hv => Visit.flags_iff (own v hv)
  have worth : ∀ v : Visit, v.killOccurred = 1 ↔ v.before.killed = true := by
    intro v
    rw [v.killOccurred_eq]
    split <;> simp_all
  refine ⟨flag h, ?_, ?_, ?_⟩
  · rintro before v after rfl
    rw [v.killOccurred_eq, flag h.before]
  · intro own
    rw [show killed = _ from flag h]
    exact exact h own
  · rintro before v after rfl own
    rw [worth, flag h.before]
    exact exact h.before own

/-- For every card and every skill in every state, the flag remembers who is felled, but for casters
that fell themselves. -/
theorem killFlag_settled (b : Battle) :
    (∀ c target, b.KillFlag (b.copyVisits c target) (b.resolveCard c target).1
      (b.resolveCard c target).2) ∧
    ∀ enemy skill attack, b.KillFlag (b.skillVisits enemy skill attack)
      (b.resolveSkill enemy skill attack).1 (b.resolveSkill enemy skill attack).2 :=
  ⟨fun c target => killFlag_of_marks (resolveCard_marks b c target),
    fun enemy skill attack => killFlag_of_marks (resolveSkill_marks b enemy skill attack)⟩

/-! ## Two cards -/

def reckoning : Card :=
  { id := "reckoning", name := "Reckoning", cost := 1
    description := "Deal 60 damage to all enemies. If that kills, take 3 damage."
    slots := .ofList
      [Sample.slot .areaDamage "60", Sample.slot .selfDamage "3" "killoccurred==1"] }

/-- The enemy falls, the caster does not, and the flag is raised. -/
theorem killFlag_settled_reckoning :
    let b := dealt [reckoning] 7
    let c : PlayedCopy := { copy := 0, card := reckoning, place := 0 }
    (∀ v ∈ b.copyVisits c none, v.ownFall = false) ∧ (b.resolveCard c none).1 = true ∧
      b.Felled (b.resolveCard c none).2 := by
  intro b c
  have own : ∀ v ∈ b.copyVisits c none, v.ownFall = false := by decide +kernel
  have raised : (b.resolveCard c none).1 = true := by decide +kernel
  exact ⟨own, raised, (((killFlag_settled b).1 c none).answer_iff own).mp raised⟩

def ruin : Card :=
  { id := "ruin", name := "Ruin", cost := 1
    description := "Take 500 damage. If that kills, deal 7 damage to all enemies."
    slots := .ofList
      [Sample.slot .selfDamage "500", Sample.slot .areaDamage "7" "killoccurred==1"] }

def ruinCopy : PlayedCopy := { copy := 0, card := ruin, place := 0 }

/-- The ruin card has just been played, against an enemy of 50 hit points. -/
def ruinOpened : Battle :=
  let b := dealt [ruin] 7
  let held : CardCopy := { id := 0, card := ruin }
  b.opened held { b.player.piles with hand := [], inPlay := some held, discardPile := [] } none

/-- The ruin card fells its caster. Its second slot reads that nobody has fallen, so the enemy is
spared, and the resolution answers that it has not killed. -/
theorem own_fall_unflagged :
    ruinOpened.Felled (ruinOpened.resolveCard ruinCopy none).2 ∧
      (ruinOpened.resolveCard ruinCopy none).1 = false ∧
      ((ruinOpened.resolveCard ruinCopy none).2.enemies.map fun e => e.fighter.hp) = [50] ∧
      ∃ first second, ruinOpened.copyVisits ruinCopy none = [first, second] ∧
        ruinOpened.Felled second.before.battle ∧ second.killOccurred = 0 := by
  have marks := resolveCard_marks ruinOpened ruinCopy none
  have two : (ruinOpened.copyVisits ruinCopy none).length = 2 := by decide +kernel
  obtain ⟨first, second, visits⟩ := List.length_eq_two.mp two
  have told : (ruinOpened.copyVisits ruinCopy none).map Visit.felled = [[.player], []] := by
    decide +kernel
  have read : (ruinOpened.copyVisits ruinCopy none).map Visit.killOccurred = [0, 0] := by
    decide +kernel
  rw [visits] at marks told read
  simp only [List.map_cons, List.map_nil, List.cons.injEq, and_true] at told read
  have early : Marks { battle := ruinOpened, killed := false } [first] second.before :=
    Marks.before marks
  refine ⟨marks.tells.felled_iff.mpr ?_, by decide +kernel, by decide +kernel, first, second,
    visits, early.tells.felled_iff.mpr ?_, read.2⟩
  · simp [told]
  · simp [told]

end Battle

end CardBattle
