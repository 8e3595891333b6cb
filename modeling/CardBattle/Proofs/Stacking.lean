import CardBattle.Proofs.WellFormed
import Mathlib.Algebra.BigOperators.Group.List.Basic
import Mathlib.Algebra.Ring.Nat
import Mathlib.Order.MinMax

/-!
# CardBattle.Proofs.Stacking

Buffs of one kind in a row. The first makes the entry, the others are merged into it. What comes of
that can be told from the buffs alone: the stacks are added up to the largest count, and the
longest duration stays. Buffs of other kinds do not matter.

* `Ledger.addAll`: buffs in a row. `Ledger.kinds_addAll`: the order of the kinds.
* `Buff.Gathered`: the entry that buffs of one kind make together; `Buff.Gathered.merge` is one
  more buff, and `Buff.Gathered.agree` says that their order does not matter.
* `Ledger.Stacks`, `Ledger.stacks_addAll`: what a ledger becomes.
-/

namespace CardBattle

/-- A buff as it is before it is applied. -/
def Buff.Made (b : Buff) : Prop :=
  ∃ data stack duration, stack ≤ Count.greatest ∧ b = Buff.make data stack duration

theorem Buff.Made.wellFormed {b : Buff} (h : b.Made) : b.WellFormed := by
  obtain ⟨data, stack, duration, _, rfl⟩ := h
  exact Ledger.wellFormed_make data stack duration

theorem Buff.Made.stack_le {b : Buff} (h : b.Made) : b.stack ≤ Count.greatest := by
  obtain ⟨data, stack, duration, bound, rfl⟩ := h
  simp only [Buff.make, Count.greatest] at *
  split <;> omega

/-- The entry `e` that buffs of one kind make together, in the order in which they are applied. -/
structure Buff.Gathered (own : List Buff) (e : Buff) : Prop where
  /-- The data are those of the first buff. -/
  data : own.head?.map Buff.data = some e.data
  stack : e.stack =
    if e.kind.isStackable then Count.saturate (own.map Buff.stack).sum else 1
  permanent : (∃ b ∈ own, b.duration < 0) → e.duration = Buff.permanent
  longest : (∀ b ∈ own, 0 ≤ b.duration) → (own.map Buff.duration).max? = some e.duration

namespace Buff

theorem gathered_first {b : Buff} (made : b.Made) : Gathered [b] b where
  data := rfl
  stack := by
    have stack := made.wellFormed.stack
    split at stack
    · rename_i stackable
      simp [stackable, Count.saturate_of_le made.stack_le]
    · rename_i stackable
      simp [stackable, stack]
  permanent some := by
    have bound := made.wellFormed.duration
    simp only [List.mem_singleton, exists_eq_left] at some
    simp only [permanent]
    omega
  longest _ := rfl

theorem Gathered.le_duration {own : List Buff} {e : Buff} (h : Gathered own e)
    (timed : ∀ b ∈ own, 0 ≤ b.duration) : 0 ≤ e.duration := by
  obtain ⟨b, hb, same⟩ := List.mem_map.mp (List.max?_mem (h.longest timed))
  exact same ▸ timed b hb

/-- One more buff. -/
theorem Gathered.merge {own : List Buff} {e b : Buff} (h : Gathered own e) (made : b.Made)
    (same : b.kind = e.kind) : Gathered (own ++ [b]) (Ledger.merge e b) where
  data := by
    have data := h.data
    cases own with
    | nil => simp at data
    | cons first more => simpa [Ledger.merge] using data
  stack := by
    have kind : (Ledger.merge e b).kind = e.kind := rfl
    have stack := h.stack
    rw [kind]
    simp only [Ledger.merge, same]
    split at stack
    · rename_i stackable
      simp only [stackable, if_true, stack, List.map_append, List.sum_append, List.map_cons,
        List.map_nil, List.sum_singleton, Count.saturate, Count.greatest]
      omega
    · rename_i stackable
      simp [stackable, stack]
  permanent := by
    rintro ⟨c, hc, negative⟩
    have ended : e.duration < 0 ∨ b.duration < 0 := by
      rcases List.mem_append.mp hc with old | new
      · have before := h.permanent ⟨c, old, negative⟩
        simp only [Buff.permanent] at before
        omega
      · obtain rfl := List.mem_singleton.mp new
        exact .inr negative
    simp [Ledger.merge, Ledger.longer, ended]
  longest timed := by
    have old : ∀ c ∈ own, 0 ≤ c.duration := fun c hc => timed c (List.mem_append_left _ hc)
    have new : 0 ≤ b.duration := timed b (by simp)
    have before := h.le_duration old
    obtain ⟨there, bound⟩ := List.max?_eq_some_iff.mp (h.longest old)
    have duration : (Ledger.merge e b).duration = max e.duration b.duration := by
      simp only [Ledger.merge, Ledger.longer]
      rw [if_neg (by simp; omega)]
    rw [duration, List.map_append, List.max?_eq_some_iff]
    constructor
    · rcases max_choice e.duration b.duration with longer | longer <;> rw [longer]
      · exact List.mem_append_left _ there
      · exact List.mem_append_right _ (List.mem_singleton_self _)
    · intro d hd
      rcases List.mem_append.mp hd with hd | hd
      · exact le_max_of_le_left (bound d hd)
      · exact le_max_of_le_right (List.mem_singleton.mp hd).le

/-- The order of the buffs decides on the data only. -/
theorem Gathered.agree {own own' : List Buff} {e e' : Buff} (h : Gathered own e)
    (h' : Gathered own' e') (kind : e'.kind = e.kind) (perm : own'.Perm own) :
    e'.stack = e.stack ∧ e'.duration = e.duration := by
  constructor
  · rw [h.stack, h'.stack, kind, (perm.map Buff.stack).sum_eq]
  · by_cases some : ∃ b ∈ own, b.duration < 0
    · have some' : ∃ b ∈ own', b.duration < 0 := by simpa only [perm.mem_iff] using some
      rw [h.permanent some, h'.permanent some']
    · simp only [not_exists, not_and, not_lt] at some
      have some' : ∀ b ∈ own', 0 ≤ b.duration := by simpa only [perm.mem_iff] using some
      obtain ⟨there, bound⟩ := List.max?_eq_some_iff.mp (h.longest some)
      obtain ⟨there', bound'⟩ := List.max?_eq_some_iff.mp (h'.longest some')
      have durations := perm.map Buff.duration
      exact le_antisymm (bound _ (durations.mem_iff.mp there'))
        (bound' _ (durations.mem_iff.mpr there))

end Buff

namespace Ledger

/-! ## Buffs in a row -/

/-- Applies buffs one after the other, and answers what each of them did. -/
def addAll : List Buff → Ledger → List Applied × Ledger
  | [], l => ([], l)
  | b :: bs, l =>
    let (applied, l) := l.add b
    let (more, l) := addAll bs l
    (applied :: more, l)

/-- The buffs of one kind, in their order. -/
def own (k : BuffKind) (bs : List Buff) : List Buff := bs.filter fun b => b.kind = k

theorem addAll_append (xs ys : List Buff) (l : Ledger) :
    addAll (xs ++ ys) l =
      ((addAll xs l).1 ++ (addAll ys (addAll xs l).2).1, (addAll ys (addAll xs l).2).2) := by
  induction xs generalizing l with
  | nil => rfl
  | cons x xs ih => simp only [List.cons_append, addAll, ih]

theorem addAll_concat (bs : List Buff) (b : Buff) (l : Ledger) :
    addAll (bs ++ [b]) l =
      ((addAll bs l).1 ++ [(add (addAll bs l).2 b).1], (add (addAll bs l).2 b).2) :=
  addAll_append bs [b] l

theorem length_addAll (bs : List Buff) (l : Ledger) : (addAll bs l).1.length = bs.length := by
  induction bs generalizing l with
  | nil => rfl
  | cons b bs ih => simp [addAll, ih]

theorem distinct_addAll {l : Ledger} (distinct : l.Distinct) (bs : List Buff) :
    (addAll bs l).2.Distinct := by
  induction bs generalizing l with
  | nil => exact distinct
  | cons b bs ih => exact ih (distinct_add distinct b)

/-- The kinds that are there stay where they are. -/
theorem kinds_addAll {l : Ledger} (distinct : l.Distinct) (bs : List Buff) :
    ∃ more, (addAll bs l).2.kinds = l.kinds ++ more := by
  induction bs generalizing l with
  | nil => exact ⟨[], (List.append_nil _).symm⟩
  | cons b bs ih =>
    obtain ⟨more, after⟩ := ih (distinct_add distinct b)
    have once := kinds_add distinct b
    split at once
    · exact ⟨more, by rw [← once]; exact after⟩
    · refine ⟨b.kind :: more, ?_⟩
      rw [List.append_cons, ← once]
      exact after

theorem entry?_addAll_others {l : Ledger} (distinct : l.Distinct) {k : BuffKind} {bs : List Buff}
    (others : ∀ b ∈ bs, b.kind ≠ k) : Ledger.entry? (addAll bs l).2 k = l.entry? k := by
  induction bs generalizing l with
  | nil => rfl
  | cons b bs ih =>
    rw [List.forall_mem_cons] at others
    exact (ih (distinct_add distinct b) others.2).trans
      (entry?_add_ne distinct b others.1.symm)

theorem own_concat_self {k : BuffKind} {b : Buff} (same : b.kind = k) (bs : List Buff) :
    own k (bs ++ [b]) = own k bs ++ [b] := by
  simp [own, same]

theorem own_concat_other {k : BuffKind} {b : Buff} (other : b.kind ≠ k) (bs : List Buff) :
    own k (bs ++ [b]) = own k bs := by
  simp [own, other]

theorem own_eq_nil_iff {k : BuffKind} {bs : List Buff} :
    own k bs = [] ↔ ∀ b ∈ bs, b.kind ≠ k := by
  simp [own]

/-! ## The entry -/

variable {l : Ledger} {k : BuffKind} {bs : List Buff}

/-- As long as no buff of a kind is applied there is no entry of it, and then there is the entry
that these buffs make together. By induction on the buffs, from the last one. -/
theorem gathered_addAll (distinct : l.Distinct) (absent : l.entry? k = none)
    (made : ∀ b ∈ bs, b.kind = k → b.Made) :
    (own k bs = [] ∧ Ledger.entry? (addAll bs l).2 k = none) ∨
      ∃ e, Ledger.entry? (addAll bs l).2 k = some e ∧ e.kind = k ∧ Buff.Gathered (own k bs) e := by
  induction bs using List.reverseRecOn with
  | nil => exact .inl ⟨rfl, absent⟩
  | append_singleton bs b ih =>
    have before := ih fun c hc => made c (List.mem_append_left _ hc)
    have apart := distinct_addAll distinct bs
    rw [addAll_concat]
    by_cases same : b.kind = k
    · have new : b.Made := made b (by simp) same
      have joined := entry?_add_self apart b
      rw [same] at joined
      rw [own_concat_self same]
      right
      rcases before with ⟨none, missing⟩ | ⟨e, there, kind, gathered⟩
      · rw [missing] at joined
        rw [none]
        exact ⟨b, joined, same, Buff.gathered_first new⟩
      · rw [there] at joined
        exact ⟨merge e b, joined, kind, gathered.merge new (same.trans kind.symm)⟩
    · rw [own_concat_other same, entry?_add_ne apart b (Ne.symm same)]
      exact before

/-- What a buff of the kind `k` answers after the buffs `bs`. -/
def answer (k : BuffKind) (bs : List Buff) (b : Buff) : Applied :=
  if own k bs = [] then .added
  else if k.isStackable then
    .stacked (Count.saturate ((own k (bs ++ [b])).map Buff.stack).sum)
  else .refreshed

theorem add_answer (distinct : l.Distinct) (absent : l.entry? k = none)
    (made : ∀ b ∈ bs, b.kind = k → b.Made) {b : Buff} (new : b.Made) (same : b.kind = k) :
    (add (addAll bs l).2 b).1 = answer k bs b := by
  rcases gathered_addAll distinct absent made with ⟨none, missing⟩ | ⟨e, there, kind, gathered⟩
  · simp [add, same, missing, answer, none]
  · have some : own k bs ≠ [] := by
      intro none
      have data := gathered.data
      rw [none] at data
      cases data
    have stack := (gathered.merge new (same.trans kind.symm)).stack
    have merged : (merge e b).kind = k := kind
    rw [merged, ← own_concat_self same] at stack
    simp only [add, same, there, answer, if_neg some]
    split
    · rename_i stackable
      rw [stack, if_pos stackable]
    · rfl

/-- What buffs in a row make of a ledger without an entry of the kind `k`: the entry `e`. -/
structure Stacks (l : Ledger) (k : BuffKind) (bs : List Buff) (e : Buff) : Prop where
  kind : e.kind = k
  gathered : Buff.Gathered (own k bs) e
  /-- The entry stands where the first buff of the kind was appended. -/
  place : ∃ before first after, bs = before ++ first :: after ∧
    (∀ b ∈ before, b.kind ≠ k) ∧ first.kind = k ∧
    (addAll bs l).2.entries[(addAll before l).2.entries.length]? = some e
  alone {j j' : Nat} {c c' : Buff} :
    (addAll bs l).2.entries[j]? = some c → (addAll bs l).2.entries[j']? = some c' →
      c.kind = k → c'.kind = k → j = j'
  answers {before after : List Buff} {b : Buff} : bs = before ++ b :: after → b.kind = k →
    (addAll bs l).1[before.length]? = some (answer k before b)

/-- The first buff of a kind is appended, and its entry stays there. -/
theorem place_addAll (distinct : l.Distinct) (absent : l.entry? k = none)
    {before after : List Buff} {first e : Buff} (others : ∀ b ∈ before, b.kind ≠ k)
    (same : first.kind = k)
    (there : Ledger.entry? (addAll (before ++ first :: after) l).2 k = some e) :
    (addAll (before ++ first :: after) l).2.entries[(addAll before l).2.entries.length]? =
      some e := by
  have apart := distinct_addAll distinct before
  have missing : k ∉ (addAll before l).2.kinds :=
    entry?_eq_none_iff.mp ((entry?_addAll_others distinct others).trans absent)
  have appended := kinds_add apart first
  rw [same, if_neg missing] at appended
  obtain ⟨more, kinds⟩ := kinds_addAll (distinct_add apart first) after
  have whole : (addAll (before ++ first :: after) l).2 =
      (addAll after (add (addAll before l).2 first).2).2 := by
    rw [addAll_append]
    rfl
  rw [← whole, appended] at kinds
  have here : (addAll (before ++ first :: after) l).2.kinds[(addAll before l).2.entries.length]? =
      some k := by
    rw [kinds, List.append_assoc]
    simp [Ledger.kinds]
  rw [Ledger.kinds, List.getElem?_map] at here
  obtain ⟨c, hc, kind⟩ := Option.map_eq_some_iff.mp here
  obtain ⟨he, kind'⟩ := entry?_eq_some there
  have one : c = e := List.inj_on_of_nodup_map (distinct_addAll distinct _)
    (List.mem_of_getElem? hc) he (kind.trans kind'.symm)
  rw [hc, one]

/-- Some buff of a kind is the first. -/
theorem exists_first (some : ∃ b ∈ bs, b.kind = k) :
    ∃ before first after, bs = before ++ first :: after ∧ (∀ b ∈ before, b.kind ≠ k) ∧
      first.kind = k := by
  have finds : (bs.find? fun b => b.kind = k).isSome := by simpa using some
  obtain ⟨first, found⟩ := Option.isSome_iff_exists.mp finds
  obtain ⟨kind, before, after, rfl, others⟩ := List.find?_eq_some_iff_append.mp found
  exact ⟨before, first, after, rfl, by simpa using others, by simpa using kind⟩

theorem exists_stacks (distinct : l.Distinct) (absent : l.entry? k = none)
    (made : ∀ b ∈ bs, b.kind = k → b.Made) (some : ∃ b ∈ bs, b.kind = k) :
    ∃ e, Stacks l k bs e := by
  obtain ⟨before, first, after, parts, others, kind⟩ := exists_first some
  rcases gathered_addAll distinct absent made with ⟨none, _⟩ | ⟨e, there, own, gathered⟩
  · obtain ⟨b, hb, same⟩ := some
    exact absurd same (own_eq_nil_iff.mp none b hb)
  · subst parts
    exact
      ⟨e, {
        kind := own
        gathered
        place :=
          ⟨before, first, after, rfl, others, kind, place_addAll distinct absent others kind there⟩
        alone := fun hc hc' kind kind' =>
          place_unique (distinct_addAll distinct _) hc hc' (kind.trans kind'.symm)
        answers := by
          intro xs ys b parts same
          rw [parts] at made ⊢
          have earlier : ∀ c ∈ xs, c.kind = k → c.Made :=
            fun c hc => made c (List.mem_append_left _ hc)
          have told := add_answer distinct absent earlier (made b (by simp) same) same
          have length := length_addAll xs l
          rw [addAll_append, ← length]
          simp [addAll, told] }⟩

/-- Buffs that are applied in a row to a ledger without an entry of a kind leave one entry of it.
In another order they leave an entry with the same stacks and the same duration. -/
theorem stacks_addAll (distinct : l.Distinct) (absent : l.entry? k = none)
    (made : ∀ b ∈ bs, b.kind = k → b.Made) (some : ∃ b ∈ bs, b.kind = k) :
    ∃ e, Stacks l k bs e ∧
      ∀ bs' : List Buff, bs'.Perm bs →
        ∃ e', Stacks l k bs' e' ∧ e'.stack = e.stack ∧ e'.duration = e.duration := by
  obtain ⟨e, made_of⟩ := exists_stacks distinct absent made some
  refine ⟨e, made_of, fun bs' perm => ?_⟩
  have made' : ∀ b ∈ bs', b.kind = k → b.Made := fun b hb => made b (perm.mem_iff.mp hb)
  have some' : ∃ b ∈ bs', b.kind = k := by simpa only [perm.mem_iff] using some
  obtain ⟨e', made_of'⟩ := exists_stacks distinct absent made' some'
  have kind : e'.kind = e.kind := made_of'.kind.trans made_of.kind.symm
  exact ⟨e', made_of', made_of.gathered.agree made_of'.gathered kind (perm.filter _)⟩

/-- Two wounds, with a guard between them. -/
def wounds : List Buff :=
  [.make (.bleeding (.finite 5)) 2 3, .make .guard 1 1, .make (.bleeding (.finite 7)) 4 (-1)]

theorem stacks_wounds :
    (∀ b ∈ wounds, b.Made) ∧
      ∃ e, Stacks {} .bleeding wounds e ∧ e.stack = 6 ∧ e.duration = -1 ∧
        ∀ bs' : List Buff, bs'.Perm wounds →
          ∃ e', Stacks {} .bleeding bs' e' ∧ e'.stack = e.stack ∧ e'.duration = e.duration := by
  have made : ∀ b ∈ wounds, b.Made := by
    simp only [wounds, List.forall_mem_cons]
    exact
      ⟨⟨_, _, _, by decide, rfl⟩, ⟨_, _, _, by decide, rfl⟩, ⟨_, _, _, by decide, rfl⟩, nofun⟩
  have distinct : Ledger.Distinct {} := List.nodup_nil
  have absent : Ledger.entry? {} .bleeding = none := rfl
  have some : ∃ b ∈ wounds, b.kind = .bleeding := ⟨_, List.mem_cons_self, rfl⟩
  obtain ⟨e, outcome, others⟩ := stacks_addAll distinct absent (fun b hb _ => made b hb) some
  have stack := outcome.gathered.stack
  rw [outcome.kind] at stack
  have permanent := outcome.gathered.permanent ⟨.make (.bleeding (.finite 7)) 4 (-1), by decide⟩
  exact ⟨made, e, outcome, stack, permanent, others⟩

end Ledger
end CardBattle
