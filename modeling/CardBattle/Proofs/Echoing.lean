import CardBattle.Proofs.Lasting

/-!
# CardBattle.Proofs.Echoing

How a card resolves when nothing bounds the resolution from outside. The rules count the links of
the chain that are left and the payments that a budget covers, so they end by their shape. The
relation `Resolves` counts nothing: it compares the depth it has come to with the settings, pays
as long as the rest of the budget covers the cost, and runs every echo where it is called for.
It reaches an end from every state, and it is the end that the rules reach.

On the way it keeps the moments at which copies are echoed.

* `Scene`, `Moment`: a resolution under way, and an echo that it calls for.
* `Resolves`: slots, payments, cards, echoes and the copies that swift reaches.
* `exists_resolves`, `Resolves.eq_result`: there is an end, and it is that of the rules.
* `Battle.PlayResolves`, `exists_playResolves`, `PlayResolves.eq`: the same for a whole play.
-/

namespace CardBattle

open Relation

/-- Why a copy is echoed: a slot asks for a neighbour, or swift reaches the copy. -/
inductive Cue where
  | castMore (side : Side) (distance : Nat)
  | swift
deriving DecidableEq

/-- A resolution under way. -/
structure Scene where
  frame : Frame
  /-- How many echoes it is nested in. -/
  depth : Nat
  began : Battle

/-- An echo that begins. -/
structure Moment where
  /-- The resolution that calls for it. -/
  scene : Scene
  cue : Cue
  before : Battle
  place : Nat
  copy : CardCopy

namespace Moment

/-- The state in which the echo has been told. -/
def told (m : Moment) : Battle := m.before.emit (.cardEchoed m.copy.id m.copy.card.id)

/-- The resolution of the echoed copy. -/
def opened (m : Moment) : Scene :=
  { frame := m.scene.frame.ofEcho m.place m.copy, depth := m.scene.depth + 1, began := m.told }

def echoed (m : Moment) : Nat × String := (m.copy.id, m.copy.card.id)

end Moment

namespace Effect

theorem integer_inRange {kind : EffectKind} {value part : List Char} {n : Int}
    (h : integer kind value part = .ok n) : Amount.InRange n := by
  simp only [integer] at h
  split at h
  · rename_i found
    cases h
    obtain ⟨_, bounds⟩ := Option.filter_eq_some_iff.mp found
    simpa [Amount.InRange, Amount.least, Amount.greatest] using bounds
  · cases h

/-- A slot that repeats reads a meter, and amounts as its cost and its budget. -/
theorem spendRepeat_of_read {value : String} {e : Effect}
    (h : read .spendRepeat value = .ok (some e)) :
    ∃ meter cost budget, e = .spendRepeat meter cost budget ∧ Amount.InRange cost ∧
      Amount.InRange budget := by
  simp only [read, readTrimmed, spendRepeatOf] at h
  split at h
  · split at h
    · cases h
    · split at h
      · cases h
      · rename_i readCost
        obtain ⟨_, ok, eq⟩ := map_eq_ok_iff.mp h
        cases eq
        obtain ⟨budget, readBudget, rfl⟩ := map_eq_ok_iff.mp ok
        exact ⟨_, _, budget, rfl, integer_inRange readCost, integer_inRange readBudget⟩
  · cases h

end Effect

namespace Frame

open Battle

/-- The effect of a slot at this point of a resolution: none if the slot is passed over. -/
def effect? (frame : Frame) (p : Progress) (s : Slot) : Option Effect :=
  if s.kind = .none then none
  else if frame.admits p s then
    match Effect.read s.kind s.value with
    | .ok effect => effect
    | .error _ => none
  else none

/-- The effect of a slot is the one that its value is read as. -/
theorem read_of_effect? {frame : Frame} {p : Progress} {s : Slot} {e : Effect}
    (h : frame.effect? p s = some e) : Effect.read s.kind s.value = .ok (some e) := by
  simp only [effect?] at h
  split at h
  · cases h
  · split at h
    · split at h
      · rename_i read
        rw [read, h]
      · cases h
    · cases h

theorem admits_of_effect? {frame : Frame} {p : Progress} {s : Slot} {e : Effect}
    (h : frame.effect? p s = some e) : frame.admits p s = true := by
  simp only [effect?] at h
  split at h
  · cases h
  · split at h
    · assumption
    · cases h

/-- The echo that a slot calls for at this point, with the place of the copy. -/
def call? (frame : Frame) (p : Progress) (s : Slot) : Option (Cue × Nat) :=
  match frame.effect? p s with
  | some (.castMore side distance) =>
    match frame.source with
    | none => none
    | some source =>
      (p.battle.player.piles.neighbor? source.anchor side distance).map fun found =>
        (.castMore side distance, found.1)
  | _ => none

theorem runSlot_eq_execute (echo : Echo) (frame : Frame) (p : Progress) (s : Slot) :
    frame.runSlot echo p s =
      match frame.effect? p s with
      | some effect => frame.execute echo p effect
      | none => p := by
  simp only [runSlot, effect?]
  split
  · rfl
  · split
    · cases Effect.read s.kind s.value with
      | error _ => rfl
      | ok effect => cases effect <;> rfl
    · rfl

/-- A slot echoes where it calls for it, and else does as if nothing could be echoed. -/
theorem runSlot_eq (echo : Echo) (frame : Frame) (p : Progress) (s : Slot) :
    frame.runSlot echo p s =
      match frame.call? p s with
      | some (_, place) => echo frame place p
      | none => frame.runSlot mute p s := by
  rw [runSlot_eq_execute, runSlot_eq_execute]
  simp only [call?]
  cases frame.effect? p s with
  | none => rfl
  | some effect =>
    cases effect with
    | castMore side distance =>
      simp only [execute, castMore]
      cases frame.source with
      | none => rfl
      | some source =>
        simp only
        cases p.battle.player.piles.neighbor? source.anchor side distance <;> rfl
    | _ => rfl

theorem runRepeatSlot_eq (echo : Echo) (frame : Frame) (s : Slot) (rest : List Slot)
    (p : Progress) :
    frame.runRepeatSlot echo s rest p =
      match frame.effect? p s with
      | some (.spendRepeat meter cost budget) =>
        frame.runRepeats echo rest meter cost (repeatBound cost budget) p
      | _ => p := by
  simp only [runRepeatSlot, effect?]
  by_cases kind : s.kind = .none
  · have nothing : Effect.read .none s.value = .ok none := rfl
    simp [kind, nothing]
  · simp only [if_neg kind]
    split
    · cases Effect.read s.kind s.value with
      | error _ => rfl
      | ok effect =>
        cases effect with
        | none => rfl
        | some effect => cases effect <;> rfl
    · rfl

end Frame

open CardBattle.Frame

/-! ## The relation -/

/-- What is left to do in a resolution. -/
inductive Task where
  | slots (slots : List Slot)
  /-- Runs of slots, paid from a meter as long as the rest of the budget lasts. -/
  | payments (slots : List Slot) (meter : Meter) (cost remaining : Int)
  | card
  | echo (cue : Cue) (place : Nat)
  | copies (ids : List Nat)

/-- From `p` a task takes a resolution to `q`, with these moments on the way. -/
inductive Resolves : Scene → Task → Progress → List Moment → Progress → Prop where
  | done {σ : Scene} {p : Progress} : Resolves σ (.slots []) p [] p
  | quiet {σ : Scene} {s : Slot} {ss : List Slot} {p q : Progress} {ms : List Moment}
      (none : σ.frame.call? p s = none)
      (rest : Resolves σ (.slots ss) (σ.frame.runSlot mute p s) ms q) :
      Resolves σ (.slots (s :: ss)) p ms q
  | calls {σ : Scene} {s : Slot} {ss : List Slot} {p p₁ q : Progress} {ms ms₁ : List Moment}
      {cue : Cue} {place : Nat} (call : σ.frame.call? p s = some (cue, place))
      (echo : Resolves σ (.echo cue place) p ms p₁) (rest : Resolves σ (.slots ss) p₁ ms₁ q) :
      Resolves σ (.slots (s :: ss)) p (ms ++ ms₁) q
  | spent {σ : Scene} {ss : List Slot} {meter : Meter} {cost remaining : Int} {p : Progress}
      (short : remaining < cost) : Resolves σ (.payments ss meter cost remaining) p [] p
  | refused {σ : Scene} {ss : List Slot} {meter : Meter} {cost remaining : Int} {p : Progress}
      (covered : cost ≤ remaining) (poor : p.battle.pay? σ.frame.caster meter cost = none) :
      Resolves σ (.payments ss meter cost remaining) p [] p
  | paid {σ : Scene} {ss : List Slot} {meter : Meter} {cost remaining : Int} {p p₁ q : Progress}
      {b : Battle} {ms ms₁ : List Moment} (covered : cost ≤ remaining)
      (pay : p.battle.pay? σ.frame.caster meter cost = some b)
      (run : Resolves σ (.slots ss) { p with battle := b } ms p₁)
      (rest : Resolves σ (.payments ss meter cost (remaining - cost)) p₁ ms₁ q) :
      Resolves σ (.payments ss meter cost remaining) p (ms ++ ms₁) q
  | plain {σ : Scene} {p q : Progress} {ms : List Moment} (none : σ.frame.repeatSlot? = none)
      (run : Resolves σ (.slots σ.frame.plainSlots) p ms q) : Resolves σ .card p ms q
  | unrepeated {σ : Scene} {s : Slot} {ss : List Slot} {p q : Progress} {ms : List Moment}
      (slot : σ.frame.repeatSlot? = some (s, ss))
      (run : Resolves σ (.slots σ.frame.plainSlots) p ms q)
      (idle : ∀ meter cost budget, σ.frame.effect? q s = some (.spendRepeat meter cost budget) →
        cost ≤ 0) : Resolves σ .card p ms q
  | repeated {σ : Scene} {s : Slot} {ss : List Slot} {p p₁ q : Progress} {ms ms₁ : List Moment}
      {meter : Meter} {cost budget : Int} (slot : σ.frame.repeatSlot? = some (s, ss))
      (run : Resolves σ (.slots σ.frame.plainSlots) p ms p₁)
      (effect : σ.frame.effect? p₁ s = some (.spendRepeat meter cost budget)) (pos : 0 < cost)
      (rest : Resolves σ (.payments ss meter cost budget) p₁ ms₁ q) :
      Resolves σ .card p (ms ++ ms₁) q
  | tooDeep {σ : Scene} {cue : Cue} {place : Nat} {p : Progress}
      (deep : p.battle.settings.maxChainDepth ≤ σ.depth) : Resolves σ (.echo cue place) p [] p
  | absent {σ : Scene} {cue : Cue} {place : Nat} {p : Progress}
      (shallow : σ.depth < p.battle.settings.maxChainDepth)
      (none : p.battle.player.piles.hand[place]? = none) : Resolves σ (.echo cue place) p [] p
  | echo {σ : Scene} {cue : Cue} {place : Nat} {c : CardCopy} {p q : Progress}
      {ms : List Moment} (shallow : σ.depth < p.battle.settings.maxChainDepth)
      (held : p.battle.player.piles.hand[place]? = some c)
      (card : Resolves (Moment.opened ⟨σ, cue, p.battle, place, c⟩) .card
        { p with battle := p.battle.emit (.cardEchoed c.id c.card.id) } ms q) :
      Resolves σ (.echo cue place) p (⟨σ, cue, p.battle, place, c⟩ :: ms) q
  | unreached {σ : Scene} {p : Progress} : Resolves σ (.copies []) p [] p
  | gone {σ : Scene} {id : Nat} {ids : List Nat} {p q : Progress} {ms : List Moment}
      (none : p.battle.player.piles.handPlace? id = none)
      (rest : Resolves σ (.copies ids) p ms q) : Resolves σ (.copies (id :: ids)) p ms q
  | reached {σ : Scene} {id place : Nat} {ids : List Nat} {p p₁ q : Progress}
      {ms ms₁ : List Moment} (there : p.battle.player.piles.handPlace? id = some place)
      (echo : Resolves σ (.echo .swift place) p ms p₁) (rest : Resolves σ (.copies ids) p₁ ms₁ q) :
      Resolves σ (.copies (id :: ids)) p (ms ++ ms₁) q

/-! ## What lies between -/

/-- From `b` to `b'` there are acts and these moments, and the log tells of them. Each echoed
copy is in the hand when its echo begins. -/
structure Battle.Passes (b : Battle) (ms : List Moment) (b' : Battle) : Prop where
  acts : Acts b b'
  echoes : b'.echoes = b.echoes ++ ms.map Moment.echoed
  moments : ∀ m ∈ ms, m.before.player.piles.hand[m.place]? = some m.copy ∧
    Acts b m.before ∧ Acts m.told b'

namespace Battle

variable {b b₁ b' : Battle} {ms ms₁ : List Moment}

theorem passes_of_deeds (h : Deeds b b') : b.Passes [] b' :=
  ⟨h.acts, by simp [h.echoes], by simp⟩

theorem Passes.append (h : b.Passes ms b₁) (h' : b₁.Passes ms₁ b') :
    b.Passes (ms ++ ms₁) b' := by
  refine ⟨h.acts.trans h'.acts, by simp [h'.echoes, h.echoes], ?_⟩
  intro m hm
  rcases List.mem_append.mp hm with hm | hm
  · obtain ⟨held, before, after⟩ := h.moments m hm
    exact ⟨held, before, after.trans h'.acts⟩
  · obtain ⟨held, before, after⟩ := h'.moments m hm
    exact ⟨held, h.acts.trans before, after⟩

theorem Passes.cons {m : Moment} (held : m.before.player.piles.hand[m.place]? = some m.copy)
    (h : m.told.Passes ms b') : m.before.Passes (m :: ms) b' := by
  have first : Act m.before m.told := .echo held
  refine ⟨.head first h.acts, ?_, ?_⟩
  · rw [h.echoes, Moment.told, echoes_emit]
    simp [Event.echoed?, Moment.echoed]
  · intro n hn
    rcases List.mem_cons.mp hn with rfl | hn
    · exact ⟨held, .refl, h.acts⟩
    · obtain ⟨held', before, after⟩ := h.moments n hn
      exact ⟨held', .head first before, after⟩

end Battle

namespace Resolves

open Battle

variable {σ : Scene} {t : Task} {p q : Progress} {ms : List Moment}

theorem passes (h : Resolves σ t p ms q) : p.battle.Passes ms q.battle := by
  induction h with
  | done => exact passes_of_deeds .refl
  | @quiet σ s _ p _ _ _ _ ih => exact (passes_of_deeds (runSlot_deeds σ.frame p s)).append ih
  | calls _ _ _ ih ih' => exact ih.append ih'
  | spent _ => exact passes_of_deeds .refl
  | refused _ _ => exact passes_of_deeds .refl
  | paid _ pay _ _ ih ih' =>
    have first := passes_of_deeds (.single (pay?_deed pay))
    exact (first.append ih).append ih'
  | plain _ _ ih => exact ih
  | unrepeated _ _ _ ih => exact ih
  | repeated _ _ _ _ _ ih ih' => exact ih.append ih'
  | tooDeep _ => exact passes_of_deeds .refl
  | absent _ _ => exact passes_of_deeds .refl
  | @echo σ cue place c p q ms _ held _ ih =>
    exact Passes.cons (m := ⟨σ, cue, p.battle, place, c⟩) held ih
  | unreached => exact passes_of_deeds .refl
  | gone _ _ ih => exact ih
  | reached _ _ _ ih ih' => exact ih.append ih'

theorem settings (h : Resolves σ t p ms q) : q.battle.settings = p.battle.settings :=
  h.passes.acts.lasting.settings

end Resolves

/-! ## The rules -/

namespace Scene

open Battle

/-- The links of the chain that are left. -/
def links (σ : Scene) (b : Battle) : Nat := b.settings.maxChainDepth - σ.depth

def result (σ : Scene) (p : Progress) : Task → Progress
  | .slots ss => σ.frame.runSlots (Frame.echo (σ.links p.battle)) ss p
  | .payments ss meter cost remaining =>
    σ.frame.runRepeats (Frame.echo (σ.links p.battle)) ss meter cost (repeatBound cost remaining) p
  | .card => σ.frame.runCard (Frame.echo (σ.links p.battle)) p
  | .echo _ place => Frame.echo (σ.links p.battle) σ.frame place p
  | .copies ids => ids.foldl (echoCopy σ.frame) p

theorem links_later {σ : Scene} {b b' : Battle} (acts : Acts b b') : σ.links b' = σ.links b := by
  rw [links, acts.lasting.settings, links]

/-- The rules pay only positive costs, and only a played card has copies that swift reaches. -/
def Admits (σ : Scene) : Task → Prop
  | .payments _ _ cost _ => 0 < cost
  | .copies _ => σ.depth = 0
  | _ => True

end Scene

namespace Frame

theorem repeatBound_of_lt {cost remaining : Int} (h : remaining < cost) :
    repeatBound cost remaining = 0 := by
  simp only [repeatBound]
  split
  · rfl
  · have small : remaining / cost < 1 := Int.ediv_lt_of_lt_mul (by omega) (by omega)
    omega

/-- Each payment takes one off what the budget covers. -/
theorem repeatBound_of_le {cost remaining : Int} (pos : 0 < cost) (h : cost ≤ remaining) :
    repeatBound cost remaining = repeatBound cost (remaining - cost) + 1 := by
  have less : (remaining - cost) / cost = remaining / cost - 1 := by
    rw [Int.sub_ediv_of_dvd remaining (Int.dvd_refl cost), Int.ediv_self (by omega)]
  have some : 1 ≤ remaining / cost := (Int.le_ediv_iff_mul_le pos).mpr (by omega)
  simp only [repeatBound, Int.not_le.mpr pos, if_false, less]
  omega

end Frame

namespace Resolves

open Battle

variable {σ : Scene} {t : Task} {p q : Progress} {ms : List Moment}

/-- A resolution ends where the rules end. By induction on the resolution: its settings stay the
same, so the depth that it has come to tells the links that the rules have left. -/
theorem eq_result (h : Resolves σ t p ms q) (admits : σ.Admits t) : q = σ.result p t := by
  induction h with
  | done => rfl
  | @quiet σ s ss p q ms none rest ih =>
    have ran := ih trivial
    simp only [Scene.result, Scene.links_later (runSlot_deeds σ.frame p s).acts, runSlots] at ran
    simp only [Scene.result, runSlots, List.foldl_cons, ran, runSlot_eq (Frame.echo _), none]
  | @calls σ s ss p p₁ q ms ms₁ cue place call echo rest ih ih' =>
    have first := ih trivial
    have ran := ih' trivial
    simp only [Scene.result, Scene.links_later echo.passes.acts, runSlots] at first ran
    simp only [Scene.result, runSlots, List.foldl_cons, ran, runSlot_eq (Frame.echo _), call,
      ← first]
  | @spent σ ss meter cost remaining p short =>
    simp only [Scene.result, repeatBound_of_lt short, runRepeats]
  | @refused σ ss meter cost remaining p covered poor =>
    simp only [Scene.result, repeatBound_of_le admits covered, runRepeats, poor]
  | @paid σ ss meter cost remaining p p₁ q b ms ms₁ covered pay run rest ih ih' =>
    have paid := pay?_acts pay
    have first := ih trivial
    have ran := ih' admits
    simp only [Scene.result, Scene.links_later paid] at first
    simp only [Scene.result, Scene.links_later (paid.trans run.passes.acts)] at ran
    simp only [Scene.result, repeatBound_of_le admits covered, runRepeats, pay, ← first, ran]
  | @plain σ p q ms none run ih =>
    have ran := ih trivial
    simp only [Scene.result] at ran
    simp only [Scene.result, runCard, none, ran]
  | @unrepeated σ s ss p q ms slot run idle ih =>
    have ran := ih trivial
    simp only [Scene.result] at ran
    simp only [Scene.result, runCard, slot, ← ran, runRepeatSlot_eq]
    split
    · rename_i meter cost budget effect
      simp only [repeatBound, idle meter cost budget effect, if_true, runRepeats]
    · rfl
  | @repeated σ s ss p p₁ q ms ms₁ meter cost budget slot run effect pos rest ih ih' =>
    have first := ih trivial
    have ran := ih' pos
    simp only [Scene.result, Scene.links_later run.passes.acts] at first ran
    simp only [Scene.result, runCard, slot, ← first, runRepeatSlot_eq, effect, ran]
  | @tooDeep σ cue place p deep =>
    simp only [Scene.result, Scene.links, Nat.sub_eq_zero_of_le deep, Frame.echo]
  | @absent σ cue place p shallow none =>
    obtain ⟨n, eq⟩ := Nat.exists_eq_succ_of_ne_zero (Nat.sub_ne_zero_of_lt shallow)
    simp only [Scene.result, Scene.links, eq, Frame.echo, none]
  | @echo σ cue place c p q ms shallow held card ih =>
    obtain ⟨n, eq⟩ := Nat.exists_eq_succ_of_ne_zero (Nat.sub_ne_zero_of_lt shallow)
    have ran := ih trivial
    -- The echoed card has one link less.
    have less : p.battle.settings.maxChainDepth - (σ.depth + 1) = n := by omega
    simp only [Scene.result, Scene.links, Moment.opened, emit, less] at ran
    simp only [Scene.result, Scene.links, eq, Frame.echo, held, Progress.map, emit, ran]
  | unreached => rfl
  | @gone σ id ids p q ms none rest ih =>
    have ran := ih admits
    simp only [Scene.result] at ran
    simp only [Scene.result, List.foldl_cons, echoCopy, none, ran]
  | @reached σ id place ids p p₁ q ms ms₁ there echo rest ih ih' =>
    -- An echo by swift starts a chain of its own, with all links left.
    have outermost : σ.depth = 0 := admits
    have first := ih trivial
    have ran := ih' admits
    simp only [Scene.result, Scene.links, outermost, Nat.sub_zero] at first ran
    simp only [Scene.result, List.foldl_cons, echoCopy, there, ← first, ran]

/-! ## An end -/

/-- Every echo of a scene has an end, under the settings of a battle. -/
def Echoes (σ : Scene) (settings : Settings) : Prop :=
  ∀ cue place p, p.battle.settings = settings → ∃ ms q, Resolves σ (.echo cue place) p ms q

variable {settings : Settings}

theorem exists_slots (echoes : Echoes σ settings) (ss : List Slot) (p : Progress)
    (same : p.battle.settings = settings) : ∃ ms q, Resolves σ (.slots ss) p ms q := by
  induction ss generalizing p with
  | nil => exact ⟨[], p, .done⟩
  | cons s ss ih =>
    cases call : σ.frame.call? p s with
    | none =>
      have kept := (runSlot_deeds σ.frame p s).acts.lasting.settings
      obtain ⟨ms, q, rest⟩ := ih (σ.frame.runSlot mute p s) (kept.trans same)
      exact ⟨ms, q, .quiet call rest⟩
    | some found =>
      obtain ⟨cue, place⟩ := found
      obtain ⟨ms, p₁, echo⟩ := echoes cue place p same
      obtain ⟨ms₁, q, rest⟩ := ih p₁ (echo.settings.trans same)
      exact ⟨ms ++ ms₁, q, .calls call echo rest⟩

theorem exists_payments (echoes : Echoes σ settings) (ss : List Slot) (meter : Meter)
    {cost : Int} (pos : 0 < cost) (n : Nat) (remaining : Int)
    (covers : repeatBound cost remaining = n) (p : Progress)
    (same : p.battle.settings = settings) :
    ∃ ms q, Resolves σ (.payments ss meter cost remaining) p ms q := by
  -- On the number of payments that the rest of the budget covers. Each payment takes one off.
  induction n generalizing remaining p with
  | zero =>
    by_cases short : remaining < cost
    · exact ⟨[], p, .spent short⟩
    · rw [repeatBound_of_le pos (Int.not_lt.mp short)] at covers
      cases covers
  | succ n ih =>
    by_cases short : remaining < cost
    · exact ⟨[], p, .spent short⟩
    · have covered := Int.not_lt.mp short
      cases pay : p.battle.pay? σ.frame.caster meter cost with
      | none => exact ⟨[], p, .refused covered pay⟩
      | some b =>
        have paid := (pay?_acts pay).lasting.settings.trans same
        obtain ⟨ms, p₁, run⟩ := exists_slots echoes ss { p with battle := b } paid
        rw [repeatBound_of_le pos covered, Nat.add_right_cancel_iff] at covers
        obtain ⟨ms₁, q, rest⟩ := ih (remaining - cost) covers p₁ (run.settings.trans paid)
        exact ⟨ms ++ ms₁, q, .paid covered pay run rest⟩

theorem exists_card (echoes : Echoes σ settings) (p : Progress)
    (same : p.battle.settings = settings) : ∃ ms q, Resolves σ .card p ms q := by
  obtain ⟨ms, p₁, run⟩ := exists_slots echoes σ.frame.plainSlots p same
  cases slot : σ.frame.repeatSlot? with
  | none => exact ⟨ms, p₁, .plain slot run⟩
  | some found =>
    obtain ⟨s, ss⟩ := found
    by_cases repeats : ∃ meter cost budget,
        σ.frame.effect? p₁ s = some (.spendRepeat meter cost budget) ∧ 0 < cost
    · obtain ⟨meter, cost, budget, effect, pos⟩ := repeats
      obtain ⟨ms₁, q, rest⟩ :=
        exists_payments echoes ss meter pos _ budget rfl p₁ (run.settings.trans same)
      exact ⟨ms ++ ms₁, q, .repeated slot run effect pos rest⟩
    · refine ⟨ms, p₁, .unrepeated slot run ?_⟩
      intro meter cost budget effect
      by_contra pos
      exact repeats ⟨meter, cost, budget, effect, Int.not_le.mp pos⟩

theorem exists_echoes (n : Nat) (σ : Scene) (left : settings.maxChainDepth ≤ σ.depth + n) :
    Echoes σ settings := by
  -- On the links of the chain that are left: the scene of an echoed copy has one link less, and
  -- the settings that bound the chain are still the same when it runs.
  induction n generalizing σ with
  | zero =>
    intro cue place p same
    exact ⟨[], p, .tooDeep (by rw [same]; exact left)⟩
  | succ n ih =>
    intro cue place p same
    by_cases shallow : σ.depth < p.battle.settings.maxChainDepth
    · cases held : p.battle.player.piles.hand[place]? with
      | none => exact ⟨[], p, .absent shallow held⟩
      | some c =>
        have inner := ih (Moment.opened ⟨σ, cue, p.battle, place, c⟩) (by
          simp only [Moment.opened]
          omega)
        obtain ⟨ms, q, card⟩ :=
          exists_card inner { p with battle := p.battle.emit (.cardEchoed c.id c.card.id) } same
        exact ⟨_, q, .echo shallow held card⟩
    · exact ⟨[], p, .tooDeep (Nat.not_lt.mp shallow)⟩

theorem exists_copies (echoes : Echoes σ settings) (ids : List Nat) (p : Progress)
    (same : p.battle.settings = settings) : ∃ ms q, Resolves σ (.copies ids) p ms q := by
  induction ids generalizing p with
  | nil => exact ⟨[], p, .unreached⟩
  | cons id ids ih =>
    cases there : p.battle.player.piles.handPlace? id with
    | none =>
      obtain ⟨ms, q, rest⟩ := ih p same
      exact ⟨ms, q, .gone there rest⟩
    | some place =>
      obtain ⟨ms, p₁, echo⟩ := echoes .swift place p same
      obtain ⟨ms₁, q, rest⟩ := ih p₁ (echo.settings.trans same)
      exact ⟨ms ++ ms₁, q, .reached there echo rest⟩

/-- From every state every task that the rules admit has an end. -/
theorem exists_resolves (σ : Scene) (t : Task) (p : Progress) (admits : σ.Admits t) :
    ∃ ms q, Resolves σ t p ms q := by
  have echoes : Echoes σ p.battle.settings :=
    exists_echoes p.battle.settings.maxChainDepth σ (Nat.le_add_left _ _)
  cases t with
  | slots ss => exact exists_slots echoes ss p rfl
  | payments ss meter cost remaining =>
    exact exists_payments echoes ss meter admits _ remaining rfl p rfl
  | card => exact exists_card echoes p rfl
  | echo cue place => exact echoes cue place p rfl
  | copies ids => exact exists_copies echoes ids p rfl

end Resolves

/-! ## Plays -/

namespace PlayedCopy

def scene (c : PlayedCopy) (target : Option FighterId) (b : Battle) : Scene :=
  { frame := c.frame target, depth := 0, began := b }

end PlayedCopy

namespace Battle

/-- The copies that a swift used up in a play reaches. -/
def reachedCopies (c : PlayedCopy) (reach : Option SwiftReach) (b : Battle) : List Nat :=
  match reach with
  | none => []
  | some reach => b.swiftCopies c.source.anchor reach

/-- A played copy resolves: swift is used up, the card runs, its gauges shift, and the copies
that swift reaches are echoed. -/
inductive CopyResolves (c : PlayedCopy) (target : Option FighterId) (b : Battle) :
    List Moment → Battle → Prop where
  | intro {p q : Progress} {ms ms₁ : List Moment}
      (card : Resolves (c.scene target b.takeSwift.2) .card
        { battle := b.takeSwift.2, killed := false } ms p)
      (copies : Resolves (c.scene target b.takeSwift.2)
        (.copies (reachedCopies c b.takeSwift.1 (applyShifts c.card p.battle)))
        (p.map (applyShifts c.card)) ms₁ q) :
      CopyResolves c target b (ms ++ ms₁) q.battle

/-- A whole play of a copy, with the echoes on its way. -/
inductive PlayResolves (b : Battle) (copy : Nat) (target : Option FighterId) :
    List Moment → Battle → Prop where
  | intro {place : Nat} {c : CardCopy} {piles : Piles} {ms : List Moment} {b₁ : Battle}
      (begun : b.player.piles.beginPlay? copy = some (place, c, piles))
      (resolved : CopyResolves { copy := c.id, card := c.card, place } target
        (b.opened c piles target) ms b₁) :
      PlayResolves b copy target ms b₁.finishPlay

variable {b b' : Battle} {c : PlayedCopy} {target : Option FighterId} {ms : List Moment}

theorem exists_copyResolves (c : PlayedCopy) (target : Option FighterId) (b : Battle) :
    ∃ ms b', CopyResolves c target b ms b' := by
  obtain ⟨ms, p, card⟩ := Resolves.exists_resolves (c.scene target b.takeSwift.2) .card
    { battle := b.takeSwift.2, killed := false } trivial
  obtain ⟨ms₁, q, copies⟩ := Resolves.exists_resolves (c.scene target b.takeSwift.2)
    (.copies (reachedCopies c b.takeSwift.1 (applyShifts c.card p.battle)))
    (p.map (applyShifts c.card)) rfl
  exact ⟨_, _, .intro card copies⟩

theorem CopyResolves.eq (h : CopyResolves c target b ms b') :
    b' = (b.resolveCard c target).2 := by
  obtain ⟨card, copies⟩ := h
  rw [copies.eq_result rfl, card.eq_result trivial]
  rfl

theorem CopyResolves.passes (h : CopyResolves c target b ms b') : b.Passes ms b' := by
  obtain @⟨p, q, _, _, card, copies⟩ := h
  have swift := passes_of_deeds (takeSwift_deeds b)
  have shifted := passes_of_deeds (applyShifts_deeds c.card p.battle)
  exact swift.append (card.passes.append (shifted.append copies.passes))

/-- Every accepted play has an end. -/
theorem exists_playResolves {copy : Nat} (h : b.play copy target = .ok b') :
    ∃ ms b₁, b.PlayResolves copy target ms b₁ := by
  obtain ⟨place, c, piles, begun, _, _⟩ := exists_of_play h
  obtain ⟨ms, b₁, resolved⟩ := exists_copyResolves { copy := c.id, card := c.card, place } target
    (b.opened c piles target)
  exact ⟨ms, _, .intro begun resolved⟩

/-- The end of a play is the state that is answered. -/
theorem PlayResolves.eq {copy : Nat} {b₁ : Battle} (played : b.play copy target = .ok b')
    (h : b.PlayResolves copy target ms b₁) : b₁ = b' := by
  obtain ⟨place, c, piles, begun, _, eq⟩ := exists_of_play played
  obtain ⟨begun', resolved⟩ := h
  rw [begun] at begun'
  cases begun'
  rw [eq, playCopy_eq, resolved.eq]

end Battle
end CardBattle
