import CardBattle.Proofs.Amounts
import CardBattle.Proofs.Inert
import Mathlib.Data.List.Forall2
import Mathlib.Data.List.Induction

/-!
# CardBattle.Proofs.WellFormed

The shape of a ledger, whatever is done with it. Its kinds are distinct and stand in the order in
which they joined, there always is room for a new one, stacks and durations are in their range,
and what is reported as gone was there and is gone.

* `Ledger.Action`, `Ledger.after`: actions in a row on an empty ledger.
* `Ledger.Action.kinds_perform`: one action appends a kind, or it takes out what it reports.
* `Ledger.Wears`: what a hit or a use makes of an entry; `Buff.WellFormed` is kept.
* `Ledger.Joined`, `Ledger.exists_joined`: when a kind joined, and the order.
* `Event.lined`: the kinds of a fighter, from the events alone.
* `Session.inShape_run`: the shape of all ledgers, in a battle or not.
-/

namespace CardBattle

/-- What every entry of a ledger keeps. -/
structure Buff.WellFormed (b : Buff) : Prop where
  stack : if b.kind.isStackable then 1 ≤ b.stack else b.stack = 1
  duration : -1 ≤ b.duration

/-- The data of a buff without what fear remembers. -/
def BuffData.bare : BuffData → BuffData
  | .feared _ => .feared 0
  | d => d

namespace Ledger

def kinds (l : Ledger) : List BuffKind := l.entries.map Buff.kind

/-- All that can be done with a ledger. -/
inductive Action where
  | operate (op : Operation)
  | prune
  | remove (kind : BuffKind)
deriving DecidableEq

/-- The kinds that an answer reports as gone. -/
def Answer.departed : Answer → List BuffKind
  | .gone kinds => kinds
  | .started _ expired => expired
  | _ => []

/-- The kinds that are reported as gone, and the ledger afterwards. -/
def Action.perform (l : Ledger) : Action → List BuffKind × Ledger
  | .operate op =>
    let (answer, l) := op.perform l
    (answer.departed, l)
  | .prune => l.prune
  | .remove kind =>
    let (removed, l) := l.remove kind
    ((removed.map Buff.kind).toList, l)

/-- A ledger after actions in a row. -/
def acted (l : Ledger) (actions : List Action) : Ledger :=
  actions.foldl (fun l a => (a.perform l).2) l

/-- What actions in a row make of an empty ledger. -/
def after (actions : List Action) : Ledger := acted {} actions

@[simp] theorem acted_append (l : Ledger) (actions more : List Action) :
    l.acted (actions ++ more) = (l.acted actions).acted more := List.foldl_append

theorem after_concat (actions : List Action) (a : Action) :
    after (actions ++ [a]) = (a.perform (after actions)).2 := by
  simp [after, acted]

/-! ## What leaves -/

theorem kinds_of_faces {l l' : Ledger} (h : l'.entries.map face = l.entries.map face) :
    l'.kinds = l.kinds := by
  have seen : ∀ l : Ledger, l.kinds = (l.entries.map face).map Prod.fst := by
    intro l
    rw [kinds, List.map_map]
    rfl
  rw [seen, seen, h]

/-- The kinds that have gone leave a list of kinds, and the others stay in their order. -/
structure Sheds (ks gone ks' : List BuffKind) : Prop where
  known : gone ⊆ ks
  others : ks' = ks.filter fun k => k ∉ gone

variable {ks gone ks' : List BuffKind}

theorem sheds_nothing (ks : List BuffKind) : Sheds ks [] ks := ⟨List.nil_subset ks, by simp⟩

theorem Sheds.sublist (h : Sheds ks gone ks') : ks'.Sublist ks := by
  rw [h.others]
  exact List.filter_sublist

theorem Sheds.reported (h : Sheds ks gone ks') {k : BuffKind} (hk : k ∈ gone) :
    k ∈ ks ∧ k ∉ ks' := by
  refine ⟨h.known hk, ?_⟩
  rw [h.others]
  simp [hk]

/-- A sublist of distinct kinds, and the kinds that it lacks. -/
theorem sheds_of_perm (distinct : ks.Nodup) (perm : ks.Perm (gone ++ ks'))
    (sub : ks'.Sublist ks) : Sheds ks gone ks' := by
  obtain ⟨_, _, apart⟩ := List.nodup_append.mp (perm.nodup_iff.mp distinct)
  refine ⟨fun k hk => perm.mem_iff.mpr (List.mem_append_left _ hk), ?_⟩
  have stays : ks'.filter (fun k => k ∉ gone) = ks' := by
    rw [List.filter_eq_self]
    intro k hk
    simpa using fun left => apart k left k hk rfl
  have leaves : gone.filter (fun k => k ∉ gone) = [] := by simp
  have within : ks'.Sublist (ks.filter fun k => k ∉ gone) := by
    have filtered := sub.filter fun k => k ∉ gone
    rwa [stays] at filtered
  refine within.eq_of_length ?_
  rw [(perm.filter _).length_eq, List.filter_append, leaves, stays, List.nil_append]

theorem sheds_prune {l : Ledger} (h : l.Distinct) : Sheds l.kinds l.prune.1 l.prune.2.kinds := by
  refine sheds_of_perm h ?_ (List.filter_sublist.map _)
  have split := List.filter_append_perm (fun b : Buff => !b.isActive) l.entries
  simp only [Bool.not_not] at split
  simpa only [kinds, prune, ← List.map_append] using (split.map Buff.kind).symm

theorem sheds_cleanse {l : Ledger} (h : l.Distinct) (n : Nat) :
    Sheds l.kinds (l.cleanse n).1 (l.cleanse n).2.kinds := by
  obtain ⟨gone, told, perm, sub⟩ := cleanseFrom_perm n l.entries
  have told' : (l.cleanse n).1 = gone.map Buff.kind := told
  rw [told']
  refine sheds_of_perm h ?_ (sub.map _)
  have split := perm.map Buff.kind
  rwa [List.map_append] at split

theorem sheds_remove {l : Ledger} (h : l.Distinct) (kind : BuffKind) :
    Sheds l.kinds ((l.remove kind).1.map Buff.kind).toList (l.remove kind).2.kinds := by
  refine sheds_of_perm h ?_ (List.eraseP_sublist.map _)
  simp only [kinds, remove, entry?]
  generalize l.entries = bs
  induction bs with
  | nil => exact .refl _
  | cons b bs ih =>
    by_cases hb : b.kind = kind
    · simp [hb]
    · simp only [List.eraseP_cons, List.find?_cons, hb, decide_false, cond_false, List.map_cons]
      exact (ih.cons b.kind).trans List.perm_middle.symm

/-! ## One action -/

/-- Only a new kind is appended. -/
theorem kinds_add {l : Ledger} (h : l.Distinct) (b : Buff) :
    (l.add b).2.kinds = if b.kind ∈ l.kinds then l.kinds else l.kinds ++ [b.kind] := by
  simp only [add]
  cases he : l.entry? b.kind with
  | some e =>
    obtain ⟨there, kind⟩ := entry?_eq_some he
    have old : b.kind ∈ l.kinds := kind ▸ List.mem_map_of_mem there
    rw [if_pos old]
    exact mergeInto_faces b l.entries
  | none =>
    have new : b.kind ∉ l.kinds := entry?_eq_none_iff.mp he
    simp only [length_lt_maxBuffs h, if_true]
    rw [if_neg new]
    simp [kinds]

/-- An operation appends the kind of a new buff, or the kinds that it reports leave. -/
theorem Operation.kinds_perform {l : Ledger} (h : l.Distinct) (op : Operation) :
    (∃ data stack duration, op = .add data stack duration ∧ data.kind ∉ l.kinds ∧
      (op.perform l).1.departed = [] ∧ (op.perform l).2.kinds = l.kinds ++ [data.kind]) ∨
      Sheds l.kinds (op.perform l).1.departed (op.perform l).2.kinds := by
  have still : ∀ l' : Ledger, l'.entries.map face = l.entries.map face →
      Sheds l.kinds [] l'.kinds := by
    intro l' faces
    rw [kinds_of_faces faces]
    exact sheds_nothing _
  cases op with
  | add data stack duration =>
    have kinds := kinds_add h (.make data stack duration)
    rw [Buff.kind_make] at kinds
    by_cases old : data.kind ∈ l.kinds
    · rw [if_pos old] at kinds
      refine .inr ?_
      simp only [perform, kinds]
      exact sheds_nothing _
    · rw [if_neg old] at kinds
      exact .inl ⟨data, stack, duration, rfl, old, rfl, kinds⟩
  | cleanse n => exact .inr (sheds_cleanse h n)
  | outgoing x => exact .inr (sheds_nothing _)
  | incoming x => exact .inr (still _ (faces_incomingFrom l.entries x))
  | record lost => exact .inr (still _ (faces_record l lost))
  | drain => exact .inr (still _ (faces_drainFrom l.entries))
  | takeSwift => exact .inr (still _ (faces_takeSwiftFrom l.entries))
  | turnStart =>
    have started : Distinct ⟨l.entries.map turnStarted⟩ := distinct_of_faces (faces_turnStarted l) h
    have sheds := sheds_prune started
    rw [kinds_of_faces (l := l) (faces_turnStarted l)] at sheds
    exact .inr sheds
  | turnEnd maxHp => exact .inr (sheds_nothing _)

/-- So does every action. -/
theorem Action.kinds_perform {l : Ledger} (h : l.Distinct) (a : Action) :
    (∃ data stack duration, a = .operate (.add data stack duration) ∧ data.kind ∉ l.kinds ∧
      (a.perform l).1 = [] ∧ (a.perform l).2.kinds = l.kinds ++ [data.kind]) ∨
      Sheds l.kinds (a.perform l).1 (a.perform l).2.kinds := by
  cases a with
  | operate op =>
    obtain ⟨data, stack, duration, rfl, new, quiet, kinds⟩ | sheds := op.kinds_perform h
    · exact .inl ⟨data, stack, duration, rfl, new, quiet, kinds⟩
    · exact .inr sheds
  | prune => exact .inr (sheds_prune h)
  | remove kind => exact .inr (sheds_remove h kind)

theorem Action.reported {l : Ledger} (h : l.Distinct) (a : Action) {k : BuffKind}
    (hk : k ∈ (a.perform l).1) : k ∈ l.kinds ∧ k ∉ (a.perform l).2.kinds := by
  obtain ⟨_, _, _, _, _, quiet, _⟩ | sheds := a.kinds_perform h
  · rw [quiet] at hk
    cases hk
  · exact sheds.reported hk

theorem Action.distinct_perform {l : Ledger} (h : l.Distinct) (a : Action) :
    (a.perform l).2.Distinct := by
  cases a with
  | operate op => exact Ledger.distinct_perform h op
  | prune => exact distinct_prune h
  | remove kind => exact distinct_of_sublist List.eraseP_sublist h

theorem distinct_after (actions : List Action) : (after actions).Distinct := by
  induction actions using List.reverseRecOn with
  | nil => exact List.nodup_nil
  | append_singleton actions a ih =>
    rw [after_concat]
    exact a.distinct_perform ih

/-! ## The entries -/

/-- What a hit or a use makes of an entry: it is spent, or it keeps its duration and, but for what
fear remembers, its data. -/
structure Wears (b c : Buff) : Prop where
  face : face c = face b
  spent : c.duration = 0 ∨ c.duration = b.duration ∧ c.data.bare = b.data.bare

theorem Wears.refl (b : Buff) : Wears b b := ⟨rfl, .inr ⟨rfl, rfl⟩⟩

theorem wears_self (bs : List Buff) : List.Forall₂ Wears bs bs :=
  List.forall₂_same.mpr fun b _ => .refl b

theorem wears_meet (b : Buff) (x : Single) : Wears b (meet b x).2 := by
  refine ⟨face_meet b x, ?_⟩
  simp only [meet]
  split
  · split
    · exact .inr ⟨rfl, rfl⟩
    · split
      · exact .inl rfl
      · exact .inr ⟨rfl, rfl⟩
    · exact .inr ⟨rfl, rfl⟩
  · exact .inr ⟨rfl, rfl⟩

theorem wears_incomingFrom (bs : List Buff) (x : Single) :
    List.Forall₂ Wears bs (incomingFrom bs x).2 := by
  induction bs generalizing x with
  | nil => exact .nil
  | cons b bs ih => exact .cons (wears_meet b x) (ih _)

theorem wears_recordIn (lost : Int) (b : Buff) : Wears b (recordIn lost b) := by
  refine ⟨face_recordIn lost b, .inr ?_⟩
  obtain ⟨d, n, t⟩ := b
  cases d with
  | feared acc =>
    simp only [recordIn]
    split <;> exact ⟨rfl, rfl⟩
  | _ => exact ⟨rfl, rfl⟩

theorem wears_record (l : Ledger) (lost : Int) :
    List.Forall₂ Wears l.entries (l.record lost).entries := by
  rw [record, List.forall₂_map_right_iff]
  exact List.forall₂_same.mpr fun b _ => wears_recordIn lost b

theorem wears_drained {b : Buff} {percent : Single} (h : drainable? b = some percent) :
    Wears b (drained b) := by
  refine ⟨face_drained b, .inl ?_⟩
  obtain ⟨d, n, t⟩ := b
  cases d <;> first | rfl | cases h

theorem wears_drainFrom (bs : List Buff) : List.Forall₂ Wears bs (drainFrom bs).2 := by
  induction bs with
  | nil => exact .nil
  | cons b bs ih =>
    simp only [drainFrom]
    split
    · rename_i percent h
      exact .cons (wears_drained h) (wears_self bs)
    · exact .cons (.refl b) ih

theorem wears_takeSwiftFrom (bs : List Buff) : List.Forall₂ Wears bs (takeSwiftFrom bs).2 := by
  induction bs with
  | nil => exact .nil
  | cons b bs ih =>
    simp only [takeSwiftFrom]
    split
    · exact .cons ⟨rfl, .inl rfl⟩ (wears_self bs)
    · exact .cons (.refl b) ih

theorem Wears.wellFormed {b c : Buff} (h : Wears b c) (hb : b.WellFormed) : c.WellFormed := by
  obtain ⟨kind, stack⟩ := Prod.mk.inj h.face
  refine ⟨by rw [kind, stack]; exact hb.stack, ?_⟩
  obtain spent | ⟨kept, _⟩ := h.spent
  · omega
  · exact kept ▸ hb.duration

theorem wellFormed_of_wears {bs cs : List Buff} (h : List.Forall₂ Wears bs cs)
    (hb : ∀ b ∈ bs, b.WellFormed) : ∀ c ∈ cs, c.WellFormed := by
  induction h with
  | nil => exact nofun
  | cons first _ ih =>
    rw [List.forall_mem_cons] at hb ⊢
    exact ⟨first.wellFormed hb.1, ih hb.2⟩

theorem wellFormed_make (data : BuffData) (stack : Nat) (duration : Int) :
    (Buff.make data stack duration).WellFormed := by
  refine ⟨?_, Buff.le_duration_make data stack duration⟩
  rw [Buff.kind_make]
  simp only [Buff.make]
  split <;> omega

theorem wellFormed_turnStarted {b : Buff} (h : b.WellFormed) : (turnStarted b).WellFormed := by
  obtain ⟨kind, stack⟩ := Prod.mk.inj (face_turnStarted b)
  refine ⟨by rw [kind, stack]; exact h.stack, ?_⟩
  have bound := h.duration
  simp only [turnStarted]
  split
  · simp only
    split <;> omega
  · exact bound

/-- Stacks are added up to the largest count, so they do not fall below those of the entry. -/
theorem wellFormed_merge {e b : Buff} (he : e.WellFormed) (hb : b.WellFormed)
    (same : e.kind = b.kind) : (merge e b).WellFormed := by
  have stack := he.stack
  have bound := he.duration
  have bound' := hb.duration
  have kind : (merge e b).kind = e.kind := rfl
  constructor
  case stack =>
    rw [kind]
    simp only [merge, ← same]
    split at stack
    · rename_i stackable
      simp only [stackable, if_true, Count.saturate, Count.greatest]
      omega
    · rename_i stackable
      simpa only [stackable, Bool.false_eq_true, if_false] using stack
  case duration =>
    simp only [merge, longer, Buff.permanent]
    split <;> omega

theorem wellFormed_mergeInto {b : Buff} (hb : b.WellFormed) {bs : List Buff}
    (h : ∀ e ∈ bs, e.WellFormed) : ∀ e ∈ mergeInto b bs, e.WellFormed := by
  induction bs with
  | nil => exact nofun
  | cons e es ih =>
    rw [List.forall_mem_cons] at h
    simp only [mergeInto]
    split
    · rename_i same
      exact List.forall_mem_cons.mpr ⟨wellFormed_merge h.1 hb same, h.2⟩
    · exact List.forall_mem_cons.mpr ⟨h.1, ih h.2⟩

theorem wellFormed_add {l : Ledger} (h : ∀ e ∈ l.entries, e.WellFormed) {b : Buff}
    (hb : b.WellFormed) : ∀ e ∈ (l.add b).2.entries, e.WellFormed := by
  simp only [add]
  split
  · exact wellFormed_mergeInto hb h
  · split
    · intro e he
      rcases List.mem_append.mp he with he | he
      · exact h e he
      · exact List.mem_singleton.mp he ▸ hb
    · exact h

theorem Operation.wellFormed_perform {l : Ledger} (h : ∀ b ∈ l.entries, b.WellFormed)
    (op : Operation) : ∀ b ∈ (op.perform l).2.entries, b.WellFormed := by
  cases op with
  | add data stack duration => exact wellFormed_add h (wellFormed_make data stack duration)
  | cleanse n =>
    obtain ⟨_, _, _, sub⟩ := cleanseFrom_perm n l.entries
    exact fun b hb => h b (sub.subset hb)
  | outgoing x => exact h
  | incoming x => exact wellFormed_of_wears (wears_incomingFrom l.entries x) h
  | record lost => exact wellFormed_of_wears (wears_record l lost) h
  | drain => exact wellFormed_of_wears (wears_drainFrom l.entries) h
  | takeSwift => exact wellFormed_of_wears (wears_takeSwiftFrom l.entries) h
  | turnStart =>
    intro b hb
    obtain ⟨b₀, there, rfl⟩ := List.mem_map.mp (List.mem_of_mem_filter hb)
    exact wellFormed_turnStarted (h b₀ there)
  | turnEnd maxHp => exact h

theorem Action.wellFormed_perform {l : Ledger} (h : ∀ b ∈ l.entries, b.WellFormed)
    (a : Action) : ∀ b ∈ (a.perform l).2.entries, b.WellFormed := by
  cases a with
  | operate op => exact op.wellFormed_perform h
  | prune => exact fun b hb => h b (List.mem_of_mem_filter hb)
  | remove kind => exact fun b hb => h b (List.mem_of_mem_eraseP hb)

theorem wellFormed_after (actions : List Action) :
    ∀ b ∈ (after actions).entries, b.WellFormed := by
  induction actions using List.reverseRecOn with
  | nil => exact nofun
  | append_singleton actions a ih =>
    rw [after_concat]
    exact a.wellFormed_perform ih

/-! ## The order -/

/-- The action at a time appended the entry that a kind has now: it added a buff of that kind, which
was not there before and has been there ever since. -/
structure Joined (actions : List Action) (time : Nat) (kind : BuffKind) : Prop where
  added : ∃ data stack duration,
    actions[time]? = some (.operate (.add data stack duration)) ∧ data.kind = kind
  absent : kind ∉ (after (actions.take time)).kinds
  present : ∀ n, time < n → n ≤ actions.length → kind ∈ (after (actions.take n)).kinds

theorem Joined.lt_length {actions : List Action} {time : Nat} {kind : BuffKind}
    (h : Joined actions time kind) : time < actions.length := by
  obtain ⟨_, _, _, there, _⟩ := h.added
  exact (List.getElem?_eq_some_iff.mp there).1

/-- A kind that is still there after one more action joined when it did before. -/
theorem Joined.concat {actions : List Action} {time : Nat} {kind : BuffKind}
    (h : Joined actions time kind) (a : Action) (stays : kind ∈ (after (actions ++ [a])).kinds) :
    Joined (actions ++ [a]) time kind := by
  have early := h.lt_length
  obtain ⟨data, stack, duration, there, eq⟩ := h.added
  refine ⟨⟨data, stack, duration, ?_, eq⟩, ?_, fun n later within => ?_⟩
  · rw [List.getElem?_append_left early, there]
  · rw [List.take_append_of_le_length (by omega)]
    exact h.absent
  · rw [List.length_append, List.length_singleton] at within
    by_cases last : n ≤ actions.length
    · rw [List.take_append_of_le_length last]
      exact h.present n later last
    · rwa [List.take_of_length_le (by simp; omega)]

/-- The kind of a buff that the last action added joined with it. -/
theorem joined_last {actions : List Action} {data : BuffData} {stack : Nat} {duration : Int}
    (new : data.kind ∉ (after actions).kinds)
    (there : data.kind ∈ (after (actions ++ [.operate (.add data stack duration)])).kinds) :
    Joined (actions ++ [.operate (.add data stack duration)]) actions.length data.kind := by
  refine ⟨⟨data, stack, duration, List.getElem?_concat_length, rfl⟩, ?_, fun n later _ => ?_⟩
  · rwa [List.take_left]
  · rwa [List.take_of_length_le (by simp; omega)]

/-- The kinds stand in the order in which they joined. By induction on the actions from the last
one: it appends a kind that joins later than all others, or some kinds leave. -/
theorem exists_joined (actions : List Action) :
    ∃ joined : BuffKind → Nat, (∀ k ∈ (after actions).kinds, Joined actions (joined k) k) ∧
      (after actions).kinds.Pairwise fun k k' => joined k < joined k' := by
  induction actions using List.reverseRecOn with
  | nil => exact ⟨fun _ => 0, nofun, .nil⟩
  | append_singleton actions a ih =>
    obtain ⟨joined, times, order⟩ := ih
    have last := after_concat actions a
    obtain ⟨data, stack, duration, rfl, new, _, kinds⟩ | sheds :=
      a.kinds_perform (distinct_after actions)
    · rw [← last] at kinds
      have other : ∀ k ∈ (after actions).kinds, k ≠ data.kind := fun k hk eq => new (eq ▸ hk)
      refine ⟨Function.update joined data.kind actions.length, ?_, ?_⟩
      · intro k hk
        have hk' := hk
        rw [kinds, List.mem_append, List.mem_singleton] at hk'
        obtain old | rfl := hk'
        · rw [Function.update_of_ne (other k old)]
          exact (times k old).concat _ hk
        · rw [Function.update_self]
          exact joined_last new hk
      · rw [kinds, List.pairwise_append]
        refine ⟨order.imp_of_mem ?_, List.pairwise_singleton _ _, ?_⟩
        · intro k k' hk hk' before
          rwa [Function.update_of_ne (other k hk), Function.update_of_ne (other k' hk')]
        · intro k hk k' hk'
          rw [List.mem_singleton.mp hk', Function.update_self, Function.update_of_ne (other k hk)]
          exact (times k hk).lt_length
    · rw [← last] at sheds
      refine ⟨joined, fun k hk => ?_, order.sublist sheds.sublist⟩
      exact (times k (sheds.sublist.subset hk)).concat a hk

/-- What can be relied on after actions on an empty ledger. -/
structure InShape (actions : List Action) : Prop where
  distinct : (after actions).kinds.Nodup
  size : (after actions).size ≤ 15
  room : (after actions).size < Settings.maxBuffs
  appends : ∀ data stack duration, data.kind ∉ (after actions).kinds →
    ((after actions).add (.make data stack duration)).2.entries =
      (after actions).entries ++ [.make data stack duration]
  stack : ∀ b ∈ (after actions).entries, if b.kind.isStackable then 1 ≤ b.stack else b.stack = 1
  duration : ∀ b ∈ (after actions).entries, -1 ≤ b.duration
  order : ∃ joined : BuffKind → Nat,
    (∀ k ∈ (after actions).kinds, Joined actions (joined k) k) ∧
      (after actions).kinds.Pairwise fun k k' => joined k < joined k'
  reported : ∀ (a : Action), ∀ k ∈ (a.perform (after actions)).1,
    k ∈ (after actions).kinds ∧ k ∉ (a.perform (after actions)).2.kinds

theorem inShape_after (actions : List Action) : InShape actions where
  distinct := distinct_after actions
  size := length_le_of_distinct (distinct_after actions)
  room := length_lt_maxBuffs (distinct_after actions)
  appends data stack duration new := by
    have absent : Ledger.entry? (after actions) (Buff.make data stack duration).kind = none :=
      entry?_eq_none_iff.mpr new
    simp only [add, absent, length_lt_maxBuffs (distinct_after actions), if_true]
  stack b hb := (wellFormed_after actions b hb).stack
  duration b hb := (wellFormed_after actions b hb).duration
  order := exists_joined actions
  reported a _ hk := a.reported (distinct_after actions) hk

end Ledger

/-! ## Events -/

namespace Event

/-- What an event says of the kinds in the ledger of a fighter. -/
def lineUp (id : FighterId) (kinds : List BuffKind) : Event → List BuffKind
  | .buffApplied target kind _ =>
    if target = id ∧ kind ∉ kinds then kinds ++ [kind] else kinds
  | .buffExpired target kind => if target = id then kinds.erase kind else kinds
  | _ => kinds

/-- The kinds in the ledger of a fighter, as the events from the beginning on tell them. -/
def lined (id : FighterId) (es : List Event) : List BuffKind := es.foldl (lineUp id) []

theorem lineUp_of_subject {e : Event} {id : FighterId} (h : e.subject? ≠ some id)
    (kinds : List BuffKind) : e.lineUp id kinds = kinds := by
  cases e with
  | buffApplied target kind n =>
    have other : target ≠ id := fun eq => h (congrArg some eq)
    simp [lineUp, other]
  | buffExpired target kind =>
    have other : target ≠ id := fun eq => h (congrArg some eq)
    simp [lineUp, other]
  | _ => rfl

theorem foldl_lineUp_of_subject {es : List Event} {id : FighterId}
    (h : ∀ e ∈ es, e.subject? ≠ some id) (kinds : List BuffKind) :
    es.foldl (lineUp id) kinds = kinds := by
  induction es with
  | nil => rfl
  | cons e es ih =>
    rw [List.forall_mem_cons] at h
    rw [List.foldl_cons, lineUp_of_subject h.1, ih h.2]

/-- Kinds that are told to have expired are those that a ledger has shed. -/
theorem foldl_lineUp_expired {ks gone ks' : List BuffKind} (distinct : ks.Nodup)
    (h : Ledger.Sheds ks gone ks') (id : FighterId) :
    (gone.map (buffExpired id)).foldl (lineUp id) ks = ks' := by
  have erase : (gone.map (buffExpired id)).foldl (lineUp id) ks = ks.diff gone := by
    rw [List.foldl_map, List.diff_eq_foldl]
    simp only [lineUp, if_true]
  rw [erase, distinct.sdiff_eq_filter, h.others]

end Event

namespace Fighter

/-- The actions of a hit on the ledger. -/
theorem exists_acted_takeHit (f : Fighter) (x : Single) :
    ∃ actions, (f.takeHit x).2.2.buffs = f.buffs.acted actions := by
  have pruned : (f.takeHit x).2.2.buffs =
      (if 0 < (f.takeHit x).1.lost then (f.buffs.incoming x).2.record (f.takeHit x).1.lost
        else (f.buffs.incoming x).2).prune.2 := rfl
  by_cases lost : 0 < (f.takeHit x).1.lost
  · rw [if_pos lost] at pruned
    exact ⟨[.operate (.incoming x), .operate (.record (f.takeHit x).1.lost), .prune], pruned⟩
  · rw [if_neg lost] at pruned
    exact ⟨[.operate (.incoming x), .prune], pruned⟩

end Fighter

theorem Ledger.Use.exists_acted {l l' : Ledger} (h : l.Use l') :
    ∃ actions, l'.prune.2 = l.acted actions := by
  cases h with
  | idle => exact ⟨[.prune], rfl⟩
  | turnStart => exact ⟨[.operate .turnStart], rfl⟩
  | swift => exact ⟨[.operate .takeSwift, .prune], rfl⟩
  | drain => exact ⟨[.operate .drain, .prune], rfl⟩

namespace Fighter

variable {id : FighterId} {f f' : Fighter} {es : List Event}

/-- Buffs are made from texts with stacks and durations that have been put in their range. -/
theorem exists_make_of_toBuff {spec : BuffSpec} {buff : Buff} (h : spec.toBuff = .ok buff) :
    ∃ data, buff = .make data spec.stack spec.duration := by
  simp only [BuffSpec.toBuff] at h
  cases read : BuffSpec.data spec.kind spec.parameter.toList with
  | error fault => simp [read, Except.map] at h
  | ok data =>
    simp only [read, Except.map, Except.ok.injEq] at h
    exact ⟨data, h.symm⟩

/-- Whatever happens to a fighter is actions on its ledger. -/
theorem Change.exists_acted (h : f.Change id es f') :
    ∃ actions, f'.buffs = f.buffs.acted actions := by
  cases h with
  | hit x _ => exact exists_acted_takeHit f x
  | mend x _ => exact ⟨[], rfl⟩
  | @apply spec _ read =>
    obtain ⟨data, rfl⟩ := exists_make_of_toBuff read
    exact ⟨[.operate (.add data spec.stack spec.duration)], rfl⟩
  | cleanse n => exact ⟨[.operate (.cleanse n)], rfl⟩
  | settle use => exact use.exists_acted

/-- A change tells what becomes of the kinds: it appends one that it tells to be applied, or it
sheds those that it tells to have expired. -/
theorem Change.lined (h : f.Change id es f') (distinct : f.buffs.Distinct) :
    es.foldl (Event.lineUp id) f.buffs.kinds = f'.buffs.kinds ∧
      ∀ k, .buffExpired id k ∈ es → k ∈ f.buffs.kinds ∧ k ∉ f'.buffs.kinds := by
  have sheds : ∀ {gone ks' : List BuffKind}, Ledger.Sheds f.buffs.kinds gone ks' →
      (gone.map (Event.buffExpired id)).foldl (Event.lineUp id) f.buffs.kinds = ks' ∧
        ∀ k, .buffExpired id k ∈ gone.map (Event.buffExpired id) →
          k ∈ f.buffs.kinds ∧ k ∉ ks' := by
    intro gone ks' sheds
    refine ⟨Event.foldl_lineUp_expired distinct sheds id, fun k hk => sheds.reported ?_⟩
    simpa using hk
  have pruned : ∀ {l : Ledger}, l.entries.map Ledger.face = f.buffs.entries.map Ledger.face →
      Ledger.Sheds f.buffs.kinds l.prune.1 l.prune.2.kinds := by
    intro l faces
    rw [← Ledger.kinds_of_faces faces]
    exact Ledger.sheds_prune (Ledger.distinct_of_faces faces distinct)
  cases h with
  | hit x _ =>
    obtain ⟨l, faces, told, buffs⟩ := buffs_takeHit f x
    rw [told, buffs]
    obtain ⟨line, reported⟩ := sheds (pruned faces)
    refine ⟨line, fun k hk => reported k ?_⟩
    simpa using hk
  | mend x _ =>
    constructor
    · split <;> rfl
    · intro k hk
      split at hk <;> simp at hk
  | apply _ =>
    rename_i buff read
    refine ⟨?_, by simp⟩
    rw [Ledger.kinds_add distinct]
    simp only [List.foldl_cons, List.foldl_nil, Event.lineUp, true_and, ite_not]
  | cleanse n => exact sheds (Ledger.sheds_cleanse distinct n)
  | settle use => exact sheds (pruned use.faces)

end Fighter

/-! ## Battles -/

namespace Session

/-- The ledgers of a session have come about by actions, stand as the events tell, and lose what is
reported as expired. -/
structure InShape (s : Session) : Prop where
  ledgers : ∀ id f, s.battle.fighter? id = some f →
    ∃ actions, f.buffs = Ledger.after actions ∧ Ledger.InShape actions ∧
      f.buffs.kinds = Event.lined id s.history
  reported : ∀ b es, Step s.battle b → b.events.toList = s.battle.events.toList ++ es →
    ∀ id kind, .buffExpired id kind ∈ es →
      ∃ f f', s.battle.fighter? id = some f ∧ b.fighter? id = some f' ∧
        kind ∈ f.buffs.kinds ∧ kind ∉ f'.buffs.kinds

/-- The part of the shape that a step keeps. -/
def Lined (s : Session) : Prop :=
  ∀ id f, s.battle.fighter? id = some f →
    ∃ actions, f.buffs = Ledger.after actions ∧ f.buffs.kinds = Event.lined id s.history

theorem lined_step (s : Session) (b : Battle) (step : Step s.battle b) (h : s.Lined) :
    Lined { s with battle := b } := by
  obtain ⟨es, deals⟩ := step.deals
  have told := history_told deals.events
  have untold : ∀ id, (∀ e ∈ es, e.subject? ≠ some id) →
      Event.lined id (history { s with battle := b }) = Event.lined id s.history := by
    intro id others
    rw [told, Event.lined, List.foldl_append]
    exact Event.foldl_lineUp_of_subject others _
  cases deals with
  | aside _ quiet same =>
    intro id f hf
    obtain ⟨actions, buffs, kinds⟩ := h id f ((same id).symm.trans hf)
    refine ⟨actions, buffs, kinds.trans (untold id ?_).symm⟩
    exact fun e he subject => quiet e he (Event.topic_of_subject? subject)
  | @change j g g' _ hg change =>
    intro id f hf
    have hf' := hf
    rw [Battle.fighter?_emitAll, Battle.fighter?_setFighter g' hg] at hf'
    split at hf'
    · rename_i eq
      subst eq
      cases hf'
      obtain ⟨actions, buffs, kinds⟩ := h id g hg
      obtain ⟨more, acted⟩ := change.exists_acted
      have distinct : g.buffs.Distinct := buffs ▸ Ledger.distinct_after actions
      refine ⟨actions ++ more, ?_, ?_⟩
      · rw [acted, buffs, Ledger.after, Ledger.after, Ledger.acted_append]
      · rw [told, Event.lined, List.foldl_append, ← Event.lined, ← kinds,
          (change.lined distinct).1]
    · rename_i other
      obtain ⟨actions, buffs, kinds⟩ := h id f hf'
      refine ⟨actions, buffs, kinds.trans (untold id fun e he subject => other ?_).symm⟩
      rw [change.subject e he] at subject
      exact (Option.some.inj subject).symm

theorem lined_drain (s : Session) (h : s.Lined) : (s.call .drain).Lined := by
  intro id f hf
  rw [history_drain]
  exact h id f hf

theorem Lined.inShape {s : Session} (h : s.Lined) : s.InShape := by
  constructor
  case ledgers =>
    intro id f hf
    obtain ⟨actions, buffs, kinds⟩ := h id f hf
    exact ⟨actions, buffs, Ledger.inShape_after actions, kinds⟩
  case reported =>
    intro b es step told id kind he
    obtain ⟨es', deals⟩ := step.deals
    have same : es = es' := List.append_cancel_left (told.symm.trans deals.events)
    subst same
    cases deals with
    | aside _ quiet _ => exact absurd rfl (quiet _ he)
    | @change j g g' _ hg change =>
      have subject := change.subject _ he
      rw [Event.subject?, Option.some.injEq] at subject
      subst subject
      obtain ⟨actions, buffs, _⟩ := h id g hg
      have distinct : g.buffs.Distinct := buffs ▸ Ledger.distinct_after actions
      refine ⟨g, g', hg, ?_, (change.lined distinct).2 kind he⟩
      rw [Battle.fighter?_emitAll, Battle.fighter?_setFighter g' hg, if_pos rfl]

/-- Ledgers are in shape after any actions, and so are those of all fighters at any time of any
session, from the build of a started battle on. -/
theorem inShape_run :
    (∀ actions, Ledger.InShape actions) ∧
      ∀ (c : Catalog) (settings : Settings) (seed : UInt64) (deck : List String)
        (foes : List Foe) (b : Battle), Battle.start c settings seed deck foes = .ok b →
        ∃ b₀, Battle.build c settings seed deck foes = .ok b₀ ∧
          (∀ calls, Later { battle := b₀ } (run { battle := b } calls)) ∧
          ∀ s, Later { battle := b₀ } s → s.InShape := by
  refine ⟨Ledger.inShape_after, fun c settings seed deck foes b h => ?_⟩
  obtain ⟨b₀, built, later⟩ := later_of_start h
  refine ⟨b₀, built, later, fun s afterwards => Lined.inShape ?_⟩
  refine afterwards.invariant (P := Lined) lined_step lined_drain fun id f hf => ⟨[], ?_⟩
  obtain ⟨n, rfl, _⟩ := Battle.fresh_of_build built hf
  obtain ⟨_, _, _, _, _, rfl⟩ := Battle.build_eq_ok built
  exact ⟨rfl, rfl⟩

/-- A play and the end of the turn in the sample battle. -/
theorem inShape_sample :
    ∃ b, Battle.start Sample.catalog Sample.settings 1 ["strike", "mend", "echo"]
        [{ monsterId := "slime", hp := some 6 }] = .ok b ∧
      (run { battle := b } [.play 1 none, .endTurn]).InShape := by
  obtain ⟨b, h⟩ := exists_start_sample
  obtain ⟨_, _, later, shape⟩ := inShape_run.2 _ _ _ _ _ b h
  exact ⟨b, h, shape _ (later [.play 1 none, .endTurn])⟩

end Session
end CardBattle
