import CardBattle.Proofs.WellFormed
import Mathlib.Data.Nat.Init

/-!
# CardBattle.Proofs.Lifetimes

Turn starts in a row. What a ledger holds after `k` of them, what each of them reports as run out
and how many cards each of them grants can be read off the durations at the beginning.

* `Ledger.turnStarts`: the reports of `k` turn starts in a row, and the ledger afterwards.
* `Ledger.turnStart_eq`: one turn start, as `Buff.outlasts` and `Buff.aged` see it.
* `Ledger.turnStarts_eq`: all of them, by induction on their number. The first one is special: it
  alone meets entries that are inert already.
* `Ledger.elapsed_of_turnStarts`: the ledger afterwards, the gifts, and every end reported once.
-/

namespace CardBattle

namespace Buff

/-- The buff is there after `k` turn starts of its owner, unless `k` is 0. -/
def outlasts (k : Nat) (b : Buff) : Bool := b.duration < 0 || k < b.duration

/-- What `k` turn starts make of a buff that outlasts them. -/
def aged (k : Nat) (b : Buff) : Buff :=
  { b with
    data := b.data.bare
    duration := if 0 < b.duration then b.duration - k else b.duration }

/-- The turn start that takes out a buff that is not permanent. -/
def lastStart (b : Buff) : Nat := max 1 b.duration.toNat

/-- Turn start `j` takes the buff out. -/
def endsAt (j : Nat) (b : Buff) : Bool := !b.isPermanent && b.lastStart = j

theorem outlasts_iff {k : Nat} {b : Buff} :
    b.outlasts k ↔ b.duration < 0 ∨ (k : Int) < b.duration := by
  simp [outlasts]

theorem endsAt_iff {j : Nat} {b : Buff} :
    b.endsAt j ↔ 0 ≤ b.duration ∧ b.lastStart = j := by
  simp [endsAt, isPermanent]

@[simp] theorem kind_aged (k : Nat) (b : Buff) : (b.aged k).kind = b.kind := by
  obtain ⟨d, n, t⟩ := b
  cases d <;> rfl

@[simp] theorem stack_aged (k : Nat) (b : Buff) : (b.aged k).stack = b.stack := rfl

theorem duration_aged {k : Nat} {b : Buff} (h : b.outlasts k) :
    (b.aged k).duration = if b.duration < 0 then b.duration else b.duration - k := by
  rw [outlasts_iff] at h
  simp only [aged]
  split <;> split <;> omega

theorem aged_aged {k : Nat} {b : Buff} (h : b.outlasts k) :
    (b.aged k).aged 1 = b.aged (k + 1) := by
  obtain ⟨d, n, t⟩ := b
  have bare : d.bare.bare = d.bare := by cases d <;> rfl
  have lasts : t < 0 ∨ (k : Int) < t := outlasts_iff.mp h
  simp only [aged, bare, Buff.mk.injEq, true_and]
  by_cases permanent : t < 0
  · have negative : ¬ 0 < t := by omega
    simp only [negative, if_false]
  · have positive : 0 < t := by omega
    have left : 0 < t - k := by omega
    simp only [positive, left, if_true]
    omega

theorem outlasts_aged {k : Nat} {b : Buff} (h : b.outlasts k) :
    (b.aged k).outlasts 1 ↔ b.outlasts (k + 1) := by
  have lasts := outlasts_iff.mp h
  rw [outlasts_iff, outlasts_iff, duration_aged h]
  split <;> omega

theorem outlasts_one {b : Buff} : b.outlasts 1 ↔ ¬ b.endsAt 1 := by
  rw [outlasts_iff, endsAt_iff, lastStart]
  omega

/-- To outlast one more turn start is to outlast those before, and not to end at this one. -/
theorem outlasts_succ {k : Nat} (positive : 1 ≤ k) {b : Buff} :
    b.outlasts (k + 1) ↔ b.outlasts k ∧ ¬ b.endsAt (k + 1) := by
  rw [outlasts_iff, outlasts_iff, endsAt_iff, lastStart]
  omega

theorem outlasts_of_endsAt {k : Nat} {b : Buff} (positive : 1 ≤ k) (h : b.endsAt (k + 1)) :
    b.outlasts k := by
  rw [endsAt_iff, lastStart] at h
  rw [outlasts_iff]
  omega

/-- A buff that does not outlast `k` turn starts ends at one of them. -/
theorem endsAt_lastStart {k : Nat} {b : Buff} (positive : 1 ≤ k) (h : ¬ b.outlasts k) :
    b.lastStart ≤ k ∧ b.endsAt b.lastStart := by
  rw [outlasts_iff] at h
  rw [endsAt_iff, lastStart]
  omega

end Buff

namespace Ledger

/-- `k` turn starts in a row: the cards that each grants, the kinds that each reports as run out,
and the ledger afterwards. -/
def turnStarts : Nat → Ledger → List (Nat × List BuffKind) × Ledger
  | 0, l => ([], l)
  | k + 1, l =>
    let (reports, l) := turnStarts k l
    let (gifts, expired, l) := l.turnStart
    (reports ++ [(gifts, expired)], l)

/-- The entries that outlast `k` turn starts, as they are then. -/
def outliving (k : Nat) (l : Ledger) : Ledger :=
  ⟨(l.entries.filter (Buff.outlasts k)).map (Buff.aged k)⟩

/-- The kinds that turn start `j` takes out, in the order of the entries. -/
def ending (j : Nat) (l : Ledger) : List BuffKind :=
  (l.entries.filter (Buff.endsAt j)).map Buff.kind

/-- The cards that turn start `j` grants: a gift grants on the turn start at which it runs out. -/
def granted (j : Nat) (l : Ledger) : Nat :=
  match l.entry? .gifted with
  | some b => if b.duration < 0 ∨ j ≤ b.duration then b.stack else 0
  | none => 0

/-! ## One turn start -/

theorem turnStarted_eq_aged {b : Buff} (h : b.outlasts 1) : turnStarted b = b.aged 1 := by
  obtain ⟨d, n, t⟩ := b
  have active : t ≠ 0 := by
    have lasts : t < 0 ∨ ((1 : Nat) : Int) < t := Buff.outlasts_iff.mp h
    omega
  simp only [turnStarted, Buff.isActive, bne_iff_ne, ne_eq, active, not_false_eq_true, if_true]
  cases d <;> rfl

theorem isActive_turnStarted (b : Buff) : (turnStarted b).isActive = b.outlasts 1 := by
  rw [Bool.eq_iff_iff, Buff.outlasts_iff]
  simp only [turnStarted, Buff.isActive, bne_iff_ne, ne_eq]
  split
  · dsimp only
    split <;> omega
  · omega

/-- What a turn start leaves, and what it takes out. -/
theorem prune_turnStarted (l : Ledger) :
    prune ⟨l.entries.map turnStarted⟩ = (l.ending 1, l.outliving 1) := by
  have kinds : ∀ b : Buff, (turnStarted b).kind = b.kind := by
    intro b
    exact congrArg Prod.fst (face_turnStarted b)
  have seen : Buff.isActive ∘ turnStarted = Buff.outlasts 1 := funext isActive_turnStarted
  have gone : (fun b : Buff => !b.isActive) ∘ turnStarted = Buff.endsAt 1 := by
    funext b
    rw [Function.comp_apply, isActive_turnStarted, Bool.eq_iff_iff, Bool.not_eq_true',
      ← Bool.not_eq_true, Buff.outlasts_one, not_not]
  simp only [prune, List.filter_map, List.map_map, seen, gone, Function.comp_def, kinds, ending,
    outliving, Prod.mk.injEq, Ledger.mk.injEq, true_and]
  refine List.map_congr_left ?_
  intro b hb
  exact turnStarted_eq_aged (List.mem_filter.mp hb).2

/-- The fold over the active entries passes by whatever is no gift. -/
theorem foldl_gifts_of_absent {bs : List Buff} (absent : .gifted ∉ bs.map Buff.kind) (n : Nat) :
    (bs.filter Buff.isActive).foldl
      (fun n b => if b.kind = .gifted then Count.saturate (n + b.stack) else n) n = n := by
  induction bs with
  | nil => rfl
  | cons b bs ih =>
    simp only [List.map_cons, List.mem_cons, not_or] at absent
    have other : ¬ b.kind = .gifted := fun h => absent.1 h.symm
    by_cases active : b.isActive
    · simp only [List.filter_cons, active, if_true, List.foldl_cons, other, if_false]
      exact ih absent.2
    · simp only [List.filter_cons, active]
      exact ih absent.2

/-- There is one gift at most, so what the active ones grant is what it grants. -/
theorem gifts_eq {l : Ledger} (distinct : l.Distinct)
    (counts : ∀ b ∈ l.entries, b.stack ≤ Count.greatest) : l.gifts = l.granted 1 := by
  obtain ⟨bs⟩ := l
  simp only [gifts, active, granted, entry?]
  induction bs with
  | nil => rfl
  | cons b bs ih =>
    simp only [Distinct, List.map_cons, List.nodup_cons] at distinct
    by_cases gift : b.kind = .gifted
    · have rest := @foldl_gifts_of_absent bs (gift ▸ distinct.1)
      have fits : b.stack ≤ Count.greatest := counts b List.mem_cons_self
      simp only [List.filter_cons, List.find?_cons, gift, decide_true, Buff.isActive]
      by_cases active : b.duration = 0
      · have spent : ¬ (b.duration < 0 ∨ ((1 : Nat) : Int) ≤ b.duration) := by omega
        simp only [active, bne_self_eq_false, Bool.false_eq_true, if_false]
        rw [active] at spent
        simpa [spent] using rest 0
      · have grants : b.duration < 0 ∨ ((1 : Nat) : Int) ≤ b.duration := by omega
        simp only [bne_iff_ne, ne_eq, active, not_false_eq_true, if_true, List.foldl_cons, gift,
          Nat.zero_add, Count.saturate_of_le fits, grants]
        exact rest b.stack
    · have tail := ih distinct.2 fun c hc => counts c (List.mem_cons_of_mem b hc)
      by_cases active : b.isActive
      · simpa only [List.filter_cons, active, if_true, List.foldl_cons, gift, if_false,
          List.find?_cons, decide_false] using tail
      · simpa only [List.filter_cons, active, Bool.false_eq_true, if_false, List.find?_cons, gift,
          decide_false] using tail

theorem turnStart_eq {l : Ledger} (distinct : l.Distinct)
    (counts : ∀ b ∈ l.entries, b.stack ≤ Count.greatest) :
    l.turnStart = (l.granted 1, l.ending 1, l.outliving 1) := by
  rw [turnStart, gifts_eq distinct counts, prune_turnStarted]

/-! ## Turn starts in a row -/

theorem kinds_outliving (k : Nat) (l : Ledger) :
    (l.outliving k).kinds = (l.entries.filter (Buff.outlasts k)).map Buff.kind := by
  simp [kinds, outliving, Function.comp_def]

theorem distinct_outliving {l : Ledger} (distinct : l.Distinct) (k : Nat) :
    (l.outliving k).Distinct := by
  have sub : (l.outliving k).kinds.Sublist l.kinds := by
    rw [kinds_outliving]
    exact List.filter_sublist.map _
  exact distinct.sublist sub

theorem counts_outliving {l : Ledger} (counts : ∀ b ∈ l.entries, b.stack ≤ Count.greatest)
    (k : Nat) : ∀ b ∈ (l.outliving k).entries, b.stack ≤ Count.greatest := by
  intro b hb
  obtain ⟨c, hc, rfl⟩ := List.mem_map.mp hb
  exact counts c (List.mem_filter.mp hc).1

theorem outliving_outliving {k : Nat} (positive : 1 ≤ k) (l : Ledger) :
    (l.outliving k).outliving 1 = l.outliving (k + 1) := by
  have kept : ((l.entries.filter (Buff.outlasts k)).filter fun b => (b.aged k).outlasts 1) =
      l.entries.filter (Buff.outlasts (k + 1)) := by
    rw [List.filter_filter]
    refine List.filter_congr ?_
    intro b _
    by_cases lasts : b.outlasts k
    · rw [lasts, Bool.and_true, Bool.eq_iff_iff]
      exact Buff.outlasts_aged lasts
    · have goes : ¬ b.outlasts (k + 1) := fun h => lasts ((Buff.outlasts_succ positive).mp h).1
      simp [lasts, goes]
  simp only [outliving, List.filter_map, Function.comp_def, kept, List.map_map, Ledger.mk.injEq]
  refine List.map_congr_left ?_
  intro b hb
  have lasts := (Buff.outlasts_succ positive).mp (List.mem_filter.mp hb).2
  exact Buff.aged_aged lasts.1

theorem ending_outliving {k : Nat} (positive : 1 ≤ k) (l : Ledger) :
    (l.outliving k).ending 1 = l.ending (k + 1) := by
  have gone : ((l.entries.filter (Buff.outlasts k)).filter fun b => (b.aged k).endsAt 1) =
      l.entries.filter (Buff.endsAt (k + 1)) := by
    rw [List.filter_filter]
    refine List.filter_congr ?_
    intro b _
    by_cases lasts : b.outlasts k
    · have next : ¬ (b.aged k).endsAt 1 ↔ ¬ b.endsAt (k + 1) := by
        rw [← Buff.outlasts_one, Buff.outlasts_aged lasts, Buff.outlasts_succ positive]
        exact and_iff_right lasts
      rw [lasts, Bool.and_true, Bool.eq_iff_iff]
      exact not_iff_not.mp next
    · have goes : ¬ b.endsAt (k + 1) := fun h => lasts (Buff.outlasts_of_endsAt positive h)
      simp [lasts, goes]
  simp only [ending, outliving, List.filter_map, Function.comp_def, gone, List.map_map,
    Buff.kind_aged]

/-- The gift that has outlasted `k` turn starts grants at the next. -/
theorem granted_outliving {k : Nat} {l : Ledger} (distinct : l.Distinct) :
    (l.outliving k).granted 1 = l.granted (k + 1) := by
  simp only [granted]
  cases there : l.entry? .gifted with
  | none =>
    have gone : Ledger.entry? (l.outliving k) .gifted = none := by
      rw [entry?_eq_none_iff] at there ⊢
      intro h
      have listed : BuffKind.gifted ∈ (l.outliving k).kinds := h
      rw [kinds_outliving] at listed
      exact there (List.filter_sublist.map _ |>.subset listed)
    rw [gone]
  | some b =>
    obtain ⟨mem, kind⟩ := entry?_eq_some there
    by_cases lasts : b.outlasts k
    · have stays : Ledger.entry? (l.outliving k) .gifted = some (b.aged k) := by
        have listed : b.aged k ∈ (l.outliving k).entries :=
          List.mem_map_of_mem (List.mem_filter.mpr ⟨mem, lasts⟩)
        cases found : Ledger.entry? (l.outliving k) .gifted with
        | none =>
          rw [entry?_eq_none_iff] at found
          exact absurd (List.mem_map.mpr ⟨b.aged k, listed, by rw [Buff.kind_aged, kind]⟩) found
        | some c =>
          obtain ⟨mem', kind'⟩ := entry?_eq_some found
          have same : c = b.aged k :=
            List.inj_on_of_nodup_map (distinct_outliving distinct k) mem' listed
              (by rw [kind', Buff.kind_aged, kind])
          rw [same]
      simp only [stays, Buff.duration_aged lasts, Buff.stack_aged]
      rw [Buff.outlasts_iff] at lasts
      split <;> split <;> split <;> omega
    · have gone : Ledger.entry? (l.outliving k) .gifted = none := by
        rw [entry?_eq_none_iff]
        intro h
        have listed : BuffKind.gifted ∈ (l.outliving k).kinds := h
        rw [kinds_outliving] at listed
        obtain ⟨c, hc, kind'⟩ := List.mem_map.mp listed
        obtain ⟨mem', lasts'⟩ := List.mem_filter.mp hc
        have same : c = b := List.inj_on_of_nodup_map distinct mem' mem (kind'.trans kind.symm)
        exact lasts (same ▸ lasts')
      rw [gone]
      rw [Buff.outlasts_iff] at lasts
      have late : ¬ (b.duration < 0 ∨ ((k + 1 : Nat) : Int) ≤ b.duration) := by omega
      simp only [late, if_false]

/-- The reports of `k` turn starts, and what they leave. -/
theorem turnStarts_eq {l : Ledger} (distinct : l.Distinct)
    (counts : ∀ b ∈ l.entries, b.stack ≤ Count.greatest) {k : Nat} (positive : 1 ≤ k) :
    l.turnStarts k =
      ((List.range' 1 k).map fun j => (l.granted j, l.ending j), l.outliving k) := by
  induction k, positive using Nat.le_induction with
  | base => simp [turnStarts, turnStart_eq distinct counts]
  | succ k positive ih =>
    have next := turnStart_eq (distinct_outliving distinct k) (counts_outliving counts k)
    rw [granted_outliving distinct, ending_outliving positive, outliving_outliving positive] at next
    simp only [turnStarts, ih, next, List.range'_concat, List.map_append, List.map_cons,
      List.map_nil, Nat.one_mul, Nat.add_comm 1 k]

/-! ## Every entry is reported once -/

theorem count_ending {l : Ledger} (distinct : l.Distinct) {b : Buff} (mem : b ∈ l.entries)
    (j : Nat) : (l.ending j).count b.kind = if b.endsAt j then 1 else 0 := by
  have nodup : (l.ending j).Nodup := distinct.sublist (List.filter_sublist.map _)
  have listed : b.kind ∈ l.ending j ↔ b.endsAt j := by
    constructor
    · intro h
      obtain ⟨c, hc, kind⟩ := List.mem_map.mp h
      obtain ⟨mem', ends⟩ := List.mem_filter.mp hc
      have same : c = b := List.inj_on_of_nodup_map distinct mem' mem kind
      exact same ▸ ends
    · intro h
      exact List.mem_map_of_mem (List.mem_filter.mpr ⟨mem, h⟩)
  rw [nodup.count]
  simp only [listed]

/-- In the reports of `k` turn starts, a kind that does not outlast them stands once. -/
theorem count_endings {l : Ledger} (distinct : l.Distinct) {b : Buff} (mem : b ∈ l.entries)
    {k : Nat} (positive : 1 ≤ k) :
    ((List.range' 1 k).flatMap fun j => l.ending j).count b.kind =
      if b.outlasts k then 0 else 1 := by
  induction k, positive using Nat.le_induction with
  | base =>
    have one := Buff.outlasts_one (b := b)
    by_cases ends : b.endsAt 1
    · simp [count_ending distinct mem, ends, one]
    · simp [count_ending distinct mem, ends, one]
  | succ k positive ih =>
    have next := Buff.outlasts_succ positive (b := b)
    simp only [List.range'_concat, List.flatMap_append, List.count_append, ih, Nat.one_mul,
      List.flatMap_cons, List.flatMap_nil, List.append_nil, Nat.add_comm 1 k,
      count_ending distinct mem]
    by_cases ends : b.endsAt (k + 1)
    · have lasted := Buff.outlasts_of_endsAt positive ends
      simp [ends, lasted, next]
    · simp [ends, next]

/-- What `k` turn starts in a row report about a ledger, and what they leave of it. -/
structure Elapsed (l : Ledger) (k : Nat) (reports : List (Nat × List BuffKind)) (l' : Ledger) :
    Prop where
  left : l'.entries = (l.entries.filter (Buff.outlasts k)).map (Buff.aged k)
  calls : reports.length = k
  report : ∀ j, 1 ≤ j → j ≤ k → reports[j - 1]? = some (l.granted j, l.ending j)
  once : ∀ b ∈ l.entries,
    (reports.flatMap Prod.snd).count b.kind = if b.outlasts k then 0 else 1
  last : ∀ b ∈ l.entries, ¬ b.outlasts k →
    ∃ report, reports[b.lastStart - 1]? = some report ∧ b.kind ∈ report.2

/-- **Lifetimes**: the entries that are left after `k` turn starts are those that were permanent
or had more than `k` turn starts to go. Every other entry is reported once, at its last turn
start, and a gift grants its stacks up to the turn start at which it runs out. -/
theorem elapsed_of_turnStarts {l : Ledger} (distinct : l.Distinct)
    (counts : ∀ b ∈ l.entries, b.stack ≤ Count.greatest) {k : Nat} (positive : 1 ≤ k) :
    Elapsed l k (l.turnStarts k).1 (l.turnStarts k).2 := by
  have reported : ∀ j, 1 ≤ j → j ≤ k →
      ((List.range' 1 k).map fun j => (l.granted j, l.ending j))[j - 1]? =
        some (l.granted j, l.ending j) := by
    intro j first last
    have within : j - 1 < k := by omega
    have place : 1 + (j - 1) = j := by omega
    simp [within, place]
  rw [turnStarts_eq distinct counts positive]
  refine
    { left := rfl
      calls := by simp
      report := reported
      once := ?_
      last := ?_ }
  · intro b mem
    rw [List.flatMap_map]
    exact count_endings distinct mem positive
  · intro b mem ended
    obtain ⟨soon, ends⟩ := Buff.endsAt_lastStart positive ended
    have first : 1 ≤ b.lastStart := Nat.le_max_left _ _
    refine ⟨_, reported b.lastStart first soon, ?_⟩
    exact List.mem_map_of_mem (List.mem_filter.mpr ⟨mem, ends⟩)

/-- A blessing without end, a curse for one turn, an inert guard, a gift for two turns and fear
for five, before three turn starts. -/
def sampleLifetimes : Ledger :=
  ⟨[⟨.blessed (.finite 10), 1, -1⟩, ⟨.cursed, 1, 1⟩, ⟨.guard, 1, 0⟩, ⟨.gifted, 3, 2⟩,
    ⟨.feared 40, 1, 5⟩]⟩

theorem elapsed_sampleLifetimes :
    Elapsed sampleLifetimes 3 [(3, [.cursed, .guard]), (3, [.gifted]), (0, [])]
      ⟨[⟨.blessed (.finite 10), 1, -1⟩, ⟨.feared 0, 1, 2⟩]⟩ := by
  have distinct : sampleLifetimes.Distinct := by
    unfold Distinct
    decide
  have counts : ∀ b ∈ sampleLifetimes.entries, b.stack ≤ Count.greatest := by decide
  exact elapsed_of_turnStarts distinct counts (k := 3) (by decide)

end Ledger
end CardBattle
