import CardBattle.Buff.Ledger
import Mathlib.Data.List.Nodup
import Mathlib.Data.List.Perm.Subperm

/-!
# CardBattle.Proofs.Ledger

The kinds and the stacks of a ledger. A ledger has at most one entry of each kind, so it can be
seen as a map from kinds to stacks; this is what can be told about it from outside.

* `Ledger.Distinct`: no kind occurs twice. Every operation keeps it, and it leaves room for one
  more entry (`length_lt_maxBuffs`).
* `Ledger.stackOf?`: the map. `stackOf?_add`, `stackOf?_prune` and `stackOf?_cleanse` say what
  the operations do to it; the others do not change it (`stackOf?_of_faces`).
-/

namespace CardBattle
namespace Ledger

/-- What of an entry can be seen from outside. -/
def face (b : Buff) : BuffKind × Nat := (b.kind, b.stack)

def Distinct (l : Ledger) : Prop := (l.entries.map Buff.kind).Nodup

/-- The stacks of the entry of a kind. -/
def stackOf? (l : Ledger) (k : BuffKind) : Option Nat := (l.entry? k).map Buff.stack

theorem entry?_eq_some {l : Ledger} {k : BuffKind} {e : Buff} (h : l.entry? k = some e) :
    e ∈ l.entries ∧ e.kind = k := by
  have hk := List.find?_some h
  exact ⟨List.mem_of_find?_eq_some h, by simpa using hk⟩

theorem entry?_eq_none_iff {l : Ledger} {k : BuffKind} :
    l.entry? k = none ↔ k ∉ l.entries.map Buff.kind := by
  simp [Ledger.entry?]

/-- In a ledger of distinct kinds the stacks of a kind are those of its only entry. -/
theorem stackOf?_eq_some_iff {l : Ledger} (h : l.Distinct) {k : BuffKind} {n : Nat} :
    l.stackOf? k = some n ↔ ∃ e ∈ l.entries, e.kind = k ∧ e.stack = n := by
  constructor
  · intro hn
    obtain ⟨e, he, hs⟩ := Option.map_eq_some_iff.mp hn
    obtain ⟨hm, hk⟩ := entry?_eq_some he
    exact ⟨e, hm, hk, hs⟩
  · rintro ⟨e, hm, hk, rfl⟩
    cases he : l.entry? k with
    | none =>
      rw [entry?_eq_none_iff] at he
      exact absurd (hk ▸ List.mem_map_of_mem hm) he
    | some e' =>
      obtain ⟨hm', hk'⟩ := entry?_eq_some he
      have same : e' = e := List.inj_on_of_nodup_map h hm' hm (hk'.trans hk.symm)
      simp [stackOf?, he, same]

/-! ## Operations that show nothing -/

/-- The faces of the entries decide on distinctness. -/
theorem distinct_of_faces {l l' : Ledger} (h : l'.entries.map face = l.entries.map face)
    (hd : l.Distinct) : l'.Distinct := by
  have kinds : ∀ l : Ledger, l.entries.map Buff.kind = (l.entries.map face).map Prod.fst := by
    intro l
    rw [List.map_map]
    rfl
  rw [Distinct, kinds, h, ← kinds]
  exact hd

/-- The faces of the entries decide on the stacks. -/
theorem stackOf?_of_faces {l l' : Ledger} (h : l'.entries.map face = l.entries.map face)
    (k : BuffKind) : l'.stackOf? k = l.stackOf? k := by
  have seen : ∀ l : Ledger, l.stackOf? k =
      ((l.entries.map face).find? fun p => p.1 = k).map Prod.snd := by
    intro l
    rw [List.find?_map, Option.map_map]
    rfl
  rw [seen, seen, h]

theorem face_turnStarted (b : Buff) : face (turnStarted b) = face b := by
  obtain ⟨d, n, t⟩ := b
  simp only [turnStarted]
  split
  · cases d <;> rfl
  · rfl

theorem face_meet (b : Buff) (x : Single) : face (meet b x).2 = face b := by
  simp only [meet]
  split
  · split
    · rfl
    · split <;> rfl
    · rfl
  · rfl

theorem face_recordIn (lost : Int) (b : Buff) : face (recordIn lost b) = face b := by
  obtain ⟨d, n, t⟩ := b
  cases d with
  | feared acc =>
    simp only [recordIn]
    split <;> rfl
  | _ => rfl

theorem face_drained (b : Buff) : face (drained b) = face b := by
  obtain ⟨d, n, t⟩ := b
  cases d <;> rfl

theorem faces_incomingFrom (bs : List Buff) (x : Single) :
    (incomingFrom bs x).2.map face = bs.map face := by
  induction bs generalizing x with
  | nil => rfl
  | cons b bs ih => simp only [incomingFrom, List.map_cons, face_meet, ih]

theorem faces_drainFrom (bs : List Buff) : (drainFrom bs).2.map face = bs.map face := by
  induction bs with
  | nil => rfl
  | cons b bs ih =>
    simp only [drainFrom]
    split
    · simp only [List.map_cons, face_drained]
    · simp only [List.map_cons, ih]

theorem faces_takeSwiftFrom (bs : List Buff) :
    (takeSwiftFrom bs).2.map face = bs.map face := by
  induction bs with
  | nil => rfl
  | cons b bs ih =>
    simp only [takeSwiftFrom]
    split
    · rfl
    · simp only [List.map_cons, ih]

theorem faces_turnStarted (l : Ledger) :
    (l.entries.map turnStarted).map face = l.entries.map face := by
  simp [Function.comp_def, face_turnStarted]

theorem faces_record (l : Ledger) (lost : Int) :
    (l.record lost).entries.map face = l.entries.map face := by
  simp [record, Function.comp_def, face_recordIn]

/-! ## Entries that leave -/

/-- Whatever leaves a ledger of distinct kinds, the stacks of the others stay. -/
theorem stackOf?_of_perm {l l' : Ledger} {gone : List Buff} (hd : l.Distinct)
    (h : l.entries.Perm (gone ++ l'.entries)) (k : BuffKind) :
    l'.stackOf? k = if k ∈ gone.map Buff.kind then none else l.stackOf? k := by
  have hd' : (gone.map Buff.kind ++ l'.entries.map Buff.kind).Nodup := by
    rw [← List.map_append]
    exact (h.map Buff.kind).nodup_iff.mp hd
  obtain ⟨_, kept, apart⟩ := List.nodup_append.mp hd'
  by_cases hk : k ∈ gone.map Buff.kind
  · have absent : k ∉ l'.entries.map Buff.kind := fun hm => apart k hk k hm rfl
    simp [hk, stackOf?, entry?_eq_none_iff.mpr absent]
  · simp only [hk, if_false]
    ext n
    rw [stackOf?_eq_some_iff hd, stackOf?_eq_some_iff kept]
    constructor
    · rintro ⟨e, hm, rfl, rfl⟩
      exact ⟨e, h.mem_iff.mpr (List.mem_append_right _ hm), rfl, rfl⟩
    · rintro ⟨e, hm, rfl, rfl⟩
      rcases List.mem_append.mp (h.mem_iff.mp hm) with hg | hk'
      · exact absurd (List.mem_map_of_mem hg) hk
      · exact ⟨e, hk', rfl, rfl⟩

theorem distinct_of_sublist {l l' : Ledger} (h : l'.entries.Sublist l.entries)
    (hd : l.Distinct) : l'.Distinct :=
  hd.sublist (h.map _)

theorem distinct_prune {l : Ledger} (hd : l.Distinct) : l.prune.2.Distinct :=
  distinct_of_sublist List.filter_sublist hd

theorem stackOf?_prune {l : Ledger} (hd : l.Distinct) (k : BuffKind) :
    l.prune.2.stackOf? k = if k ∈ l.prune.1 then none else l.stackOf? k := by
  refine stackOf?_of_perm hd ?_ k
  have h := List.filter_append_perm (fun b : Buff => !b.isActive) l.entries
  simpa only [prune, Bool.not_not] using h.symm

theorem cleanseFrom_perm (n : Nat) (bs : List Buff) :
    ∃ gone : List Buff, (cleanseFrom n bs).1 = gone.map Buff.kind ∧
      bs.Perm (gone ++ (cleanseFrom n bs).2) ∧ (cleanseFrom n bs).2.Sublist bs := by
  induction bs generalizing n with
  | nil => exact ⟨[], by simp [cleanseFrom]⟩
  | cons b bs ih =>
    cases n with
    | zero => exact ⟨[], by simp [cleanseFrom]⟩
    | succ n =>
      simp only [cleanseFrom]
      split
      · obtain ⟨gone, hk, hp, hs⟩ := ih (n + 1)
        exact ⟨gone, hk, (hp.cons b).trans List.perm_middle.symm, hs.cons_cons b⟩
      · obtain ⟨gone, hk, hp, hs⟩ := ih n
        exact ⟨b :: gone, by simp [hk], hp.cons b, hs.cons b⟩

theorem distinct_cleanse {l : Ledger} (hd : l.Distinct) (n : Nat) :
    (l.cleanse n).2.Distinct := by
  obtain ⟨_, _, _, hs⟩ := cleanseFrom_perm n l.entries
  exact distinct_of_sublist hs hd

theorem stackOf?_cleanse {l : Ledger} (hd : l.Distinct) (n : Nat) (k : BuffKind) :
    (l.cleanse n).2.stackOf? k = if k ∈ (l.cleanse n).1 then none else l.stackOf? k := by
  obtain ⟨gone, hk, hp, _⟩ := cleanseFrom_perm n l.entries
  have told : (l.cleanse n).1 = gone.map Buff.kind := hk
  rw [told]
  exact stackOf?_of_perm hd hp k

/-! ## Entries that arrive -/

theorem mem_kinds (k : BuffKind) : k ∈ (Vocabulary.values : List BuffKind) := by
  cases k <;> decide

theorem length_le_of_distinct {l : Ledger} (hd : l.Distinct) : l.entries.length ≤ 15 := by
  have h := (hd.subperm fun k _ => mem_kinds k).length_le
  rw [List.length_map] at h
  exact h

/-- There are fewer kinds than places, so a new kind always finds room. -/
theorem length_lt_maxBuffs {l : Ledger} (hd : l.Distinct) :
    l.entries.length < Settings.maxBuffs :=
  Nat.lt_succ_of_le (length_le_of_distinct hd)

theorem mergeInto_faces (b : Buff) (bs : List Buff) :
    (mergeInto b bs).map Buff.kind = bs.map Buff.kind := by
  induction bs with
  | nil => rfl
  | cons e es ih =>
    simp only [mergeInto]
    split
    · rfl
    · simp only [List.map_cons, ih]

theorem find?_mergeInto_ne (b : Buff) (bs : List Buff) {k : BuffKind} (hk : k ≠ b.kind) :
    (mergeInto b bs).find? (fun e => e.kind = k) = bs.find? (fun e => e.kind = k) := by
  induction bs with
  | nil => rfl
  | cons e es ih =>
    simp only [mergeInto]
    split
    · rename_i he
      have apart : ¬ e.kind = k := fun h => hk (h.symm.trans he)
      have apart' : ¬ (merge e b).kind = k := apart
      simp [apart, apart']
    · simp only [List.find?_cons, ih]

theorem distinct_add {l : Ledger} (hd : l.Distinct) (b : Buff) : (l.add b).2.Distinct := by
  simp only [add]
  split
  · simp only [Distinct, mergeInto_faces]
    exact hd
  · rename_i he
    rw [entry?_eq_none_iff] at he
    simp only [length_lt_maxBuffs hd, if_true, Distinct, List.map_append, List.map_cons,
      List.map_nil]
    rw [List.nodup_append]
    refine ⟨hd, by simp, ?_⟩
    intro k hk k' hk' same
    rw [List.mem_singleton] at hk'
    exact he (hk' ▸ same ▸ hk)

theorem isSome_entry?_add {l : Ledger} (hd : l.Distinct) (b : Buff) :
    (Ledger.entry? (l.add b).2 b.kind).isSome := by
  rw [Option.isSome_iff_ne_none, Ne, entry?_eq_none_iff, not_not]
  simp only [add]
  split
  · rename_i e he
    obtain ⟨hm, hk⟩ := entry?_eq_some he
    rw [mergeInto_faces, ← hk]
    exact List.mem_map_of_mem hm
  · simp [length_lt_maxBuffs hd]

theorem entry?_add_ne {l : Ledger} (hd : l.Distinct) (b : Buff) {k : BuffKind}
    (hk : k ≠ b.kind) : Ledger.entry? (l.add b).2 k = l.entry? k := by
  simp only [add]
  split
  · exact find?_mergeInto_ne b l.entries hk
  · simp [length_lt_maxBuffs hd, entry?, Ne.symm hk]

theorem find?_mergeInto_self {b e : Buff} {bs : List Buff}
    (h : bs.find? (fun c => c.kind = b.kind) = some e) :
    (mergeInto b bs).find? (fun c => c.kind = b.kind) = some (merge e b) := by
  induction bs with
  | nil => cases h
  | cons c cs ih =>
    by_cases here : c.kind = b.kind
    · have first : c = e := by simpa [here] using h
      have kind : (merge c b).kind = b.kind := here
      simp [mergeInto, here, kind, ← first]
    · have later : cs.find? (fun c => c.kind = b.kind) = some e := by simpa [here] using h
      simp [mergeInto, here, ih later]

/-- The entry of a kind after a buff of this kind. -/
theorem entry?_add_self {l : Ledger} (distinct : l.Distinct) (b : Buff) :
    Ledger.entry? (l.add b).2 b.kind =
      some (match l.entry? b.kind with
        | some e => merge e b
        | none => b) := by
  simp only [add]
  cases there : l.entry? b.kind with
  | some e => exact find?_mergeInto_self there
  | none =>
    have missing : l.entries.find? (fun c => c.kind = b.kind) = none := there
    simp [length_lt_maxBuffs distinct, entry?, missing]

/-- Adding a buff changes the stacks of its kind only; `told` is what is said about them. -/
theorem stackOf?_add {l : Ledger} (hd : l.Distinct) (b : Buff) (k : BuffKind) :
    (l.add b).2.stackOf? k =
      if k = b.kind then
        some (match Ledger.entry? (l.add b).2 b.kind with
          | some e => e.stack
          | none => b.stack)
      else l.stackOf? k := by
  by_cases hk : k = b.kind
  · subst hk
    obtain ⟨e, he⟩ := Option.isSome_iff_exists.mp (isSome_entry?_add hd b)
    simp [stackOf?, he]
  · simp [stackOf?, hk, entry?_add_ne hd b hk]

end Ledger
end CardBattle
