import CardBattle.Bounds
import CardBattle.Chance.Block
import CardBattle.Chance.Generator

/-!
# CardBattle.Chance.Stream

The random stream of a battle. It is a fixed infinite sequence of 32-bit words, determined by
the seed, and a position in it; a draw reads words from the position on and never looks back.

* `below`: an evenly distributed number below a bound.
* `index`: a place in a list of given length.
* `shuffle`: the list in random order.
* `weighted`: a place drawn in proportion to weights.

Main statements: `below_lt` (a draw is below its bound), `shuffle_perm` (a shuffle moves the items
and changes none) and `weighted_pos` (what has no weight is not drawn). With them the stream is a
`Generator`.
-/

namespace CardBattle
namespace Chance

structure Stream where
  seed : UInt64
  key : Key
  position : Nat

namespace Stream

def stretch (s : UInt64) : UInt64 := s * 6364136223846793005 + 11634580027462260723

/-- The word that a stretched seed gives to the key: 32 mixed bits, turned right. -/
def keyWord (s : UInt64) : UInt32 :=
  let mixed := (((s >>> 18) ^^^ s) >>> 27).toUInt32
  let turn := (s >>> 59).toUInt32
  (mixed >>> turn) ||| (mixed <<< ((32 - turn) % 32))

/-- Key words from a seed, one per stretching. -/
def keyWords : Nat → UInt64 → List UInt32
  | 0, _ => []
  | n + 1, s =>
    let s := stretch s
    keyWord s :: keyWords n s

theorem length_keyWords (n : Nat) (s : UInt64) : (keyWords n s).length = n := by
  induction n generalizing s with
  | zero => rfl
  | succ n ih => simp [keyWords, ih]

def ofSeed (seed : UInt64) : Stream :=
  { seed
    key := ⟨(keyWords 8 seed).toArray, by simp [length_keyWords]⟩
    position := 0 }

/-- The word at a position of the sequence. -/
def wordAt (s : Stream) (n : Nat) : UInt32 :=
  (block s.key (n / 16)).get ⟨n % 16, Nat.mod_lt _ (by decide)⟩

/-- Widths of the numbers that one attempt of a draw reads. -/
inductive Width where
  | word
  | doubleWord

def Width.bits : Width → Nat
  | .word => 32
  | .doubleWord => 64

/-- The next number of a width. Of two words the first is the lower half. -/
def next (s : Stream) : Width → Nat × Stream
  | .word => ((s.wordAt s.position).toNat, { s with position := s.position + 1 })
  | .doubleWord =>
    ((s.wordAt s.position).toNat + 4294967296 * (s.wordAt (s.position + 1)).toNat,
      { s with position := s.position + 2 })

/-- Reads numbers until the lower half of `number * n` is at most `zone`, and answers the upper
half. The attempts have an end only to make this a function; each one succeeds with
probability at least one half. -/
def attempt (w : Width) (n zone : Nat) : Nat → Stream → Nat × Stream
  | 0, s =>
    let (v, s) := s.next w
    (v * n / Nat.pow 2 w.bits, s)
  | tries + 1, s =>
    let (v, s) := s.next w
    if v * n % Nat.pow 2 w.bits ≤ zone then (v * n / Nat.pow 2 w.bits, s)
    else attempt w n zone tries s

def attempts : Nat := 1024

/-- A number below `n`. The zone keeps the largest multiple of `n` by a power of two. -/
def below (w : Width) (n : Nat) (s : Stream) : Nat × Stream :=
  let zone := n * Nat.pow 2 (w.bits - 1 - Nat.log2 n) - 1
  attempt w n zone attempts s

/-- A place in a list of length `n`. Nothing is drawn for the empty list. -/
def index (n : Nat) (s : Stream) : Option Nat × Stream :=
  if n = 0 then (none, s)
  else
    let (i, s) := below .doubleWord n s
    (some i, s)

/-- Exchanges each item from place `i` down to place 1 with a random one at or before it. -/
def shuffleFrom {α : Type} : Nat → Array α → Stream → Array α × Stream
  | 0, items, s => (items, s)
  | i + 1, items, s =>
    let (j, s) := below .word (i + 2) s
    shuffleFrom i (items.swapIfInBounds (i + 1) j) s

def shuffle {α : Type} (items : List α) (s : Stream) : List α × Stream :=
  let (mixed, s) := shuffleFrom (items.length - 1) items.toArray s
  (mixed.toList, s)

/-- The running totals of weights from `t` on, in 32 bits. -/
def totals (t : Nat) : List Nat → List Nat
  | [] => []
  | w :: ws => Count.add t w :: totals (Count.add t w) ws

/-- Halves a row of `size` places that begins at `base` until one place is left. There are more
than enough steps if there are as many as places. -/
def halve (below : Nat → Bool) : Nat → Nat → Nat → Nat
  | 0, base, _ => base
  | steps + 1, base, size =>
    if size ≤ 1 then base
    else
      let half := size / 2
      halve below steps (if below (base + half) then base + half else base) (size - half)

/-- The end of the places that are below, if these are the first ones of `size` places. -/
def search (below : Nat → Bool) (size : Nat) : Nat :=
  if size = 0 then 0
  else
    let base := halve below size 0 size
    if below base then base + 1 else base

/-- The place at which the running total exceeds `c`. The last total is not looked at. -/
def placeOf (c : Nat) (totals : List Nat) : Nat :=
  search (fun i => decide (totals.getD i 0 ≤ c)) (totals.length - 1)

/-- A place drawn in proportion to the weights, as long as 32 bits hold their sum. Nothing is
drawn if the last total is zero. -/
def weighted (weights : List Nat) (s : Stream) : Option Nat × Stream :=
  let totals := totals 0 weights
  let t := totals.getLastD 0
  if t = 0 then (none, s)
  else
    let zone := 4294967295 - (4294967296 - t) % t
    let (c, s) := attempt .word t zone attempts s
    (some (placeOf c totals), s)

theorem next_lt (w : Width) (s : Stream) : (s.next w).1 < Nat.pow 2 w.bits := by
  cases w with
  | word =>
    have h := (s.wordAt s.position).toNat_lt
    simpa [next, Width.bits] using h
  | doubleWord =>
    have h := (s.wordAt s.position).toNat_lt
    have h' := (s.wordAt (s.position + 1)).toNat_lt
    simp only [next, Width.bits]
    have e : Nat.pow 2 64 = 18446744073709551616 := by decide
    omega

theorem mul_div_lt {v n m : Nat} (hn : 0 < n) (hv : v < m) : v * n / m < n := by
  rw [Nat.div_lt_iff_lt_mul (by omega), Nat.mul_comm]
  exact Nat.mul_lt_mul_of_pos_left hv hn

theorem attempt_lt {w : Width} {n zone : Nat} (hn : 0 < n) (tries : Nat) (s : Stream) :
    (attempt w n zone tries s).1 < n := by
  induction tries generalizing s with
  | zero => exact mul_div_lt hn (next_lt w s)
  | succ t ih =>
    simp only [attempt]
    split
    · exact mul_div_lt hn (next_lt w s)
    · exact ih _

/-- A draw is below its bound. -/
theorem below_lt {w : Width} {n : Nat} (hn : 0 < n) (s : Stream) : (below w n s).1 < n :=
  attempt_lt hn _ s

theorem index_zero (s : Stream) : index 0 s = (none, s) := rfl

theorem exists_index {n : Nat} (pos : 0 < n) (s : Stream) : ∃ i s', index n s = (some i, s') := by
  simp [index, Nat.ne_of_gt pos]

theorem index_lt {n i : Nat} {s s' : Stream} (h : index n s = (some i, s')) : i < n := by
  simp only [index] at h
  split at h
  · simp at h
  · rename_i hn
    simp only [Prod.mk.injEq, Option.some.injEq] at h
    rw [← h.1]
    exact below_lt (Nat.pos_of_ne_zero hn) s

theorem swapIfInBounds_perm {α : Type} (items : Array α) (i j : Nat) :
    (items.swapIfInBounds i j).toList.Perm items.toList := by
  simp only [Array.swapIfInBounds]
  split
  · split
    · exact (Array.swap_perm _ _).toList
    · exact List.Perm.refl _
  · exact List.Perm.refl _

theorem shuffleFrom_perm {α : Type} (i : Nat) (items : Array α) (s : Stream) :
    (shuffleFrom i items s).1.toList.Perm items.toList := by
  induction i generalizing items s with
  | zero => exact List.Perm.refl _
  | succ i ih => exact (ih _ _).trans (swapIfInBounds_perm items _ _)

/-- A shuffle moves the items and changes none. -/
theorem shuffle_perm {α : Type} (items : List α) (s : Stream) :
    (shuffle items s).1.Perm items := by
  simpa [shuffle] using shuffleFrom_perm (items.length - 1) items.toArray s

theorem swapIfInBounds_map {α β : Type} (f : α → β) (items : Array α) (i j : Nat) :
    (items.map f).swapIfInBounds i j = (items.swapIfInBounds i j).map f := by
  simp only [Array.swapIfInBounds, Array.size_map]
  split
  · split
    · simp [Array.swap_def, Array.map_set]
    · rfl
  · rfl

theorem shuffleFrom_map {α β : Type} (f : α → β) (i : Nat) (items : Array α) (s : Stream) :
    shuffleFrom i (items.map f) s =
      ((shuffleFrom i items s).1.map f, (shuffleFrom i items s).2) := by
  induction i generalizing items s with
  | zero => rfl
  | succ i ih => simp only [shuffleFrom, swapIfInBounds_map, ih]

/-- A shuffle does not look at the items. -/
theorem shuffle_map {α β : Type} (f : α → β) (items : List α) (s : Stream) :
    shuffle (items.map f) s = ((shuffle items s).1.map f, (shuffle items s).2) := by
  have mixed := shuffleFrom_map f (items.length - 1) items.toArray s
  simp only [List.map_toArray] at mixed
  simp only [shuffle, List.length_map, mixed, Array.toList_map]

/-! ## Weights -/

theorem length_totals (t : Nat) (ws : List Nat) : (totals t ws).length = ws.length := by
  induction ws generalizing t with
  | nil => rfl
  | cons w ws ih => simp [totals, ih]

/-- Each running total in closed form. -/
theorem getD_totals {t i : Nat} {ws : List Nat} (h : i < ws.length) :
    (totals t ws).getD i 0 = (t + total (ws.take (i + 1))) % 4294967296 := by
  induction ws generalizing t i with
  | nil => cases h
  | cons w ws ih =>
    cases i with
    | zero => simp [totals, Count.add]
    | succ i =>
      have rest := ih (t := Count.add t w) (Nat.lt_of_succ_lt_succ h)
      rw [totals, List.getD_cons_succ, rest, List.take_succ_cons, total_cons, Count.add]
      omega

theorem getLastD_totals (ws : List Nat) : (totals 0 ws).getLastD 0 = total ws % 4294967296 := by
  cases h : ws.length with
  | zero => simp [List.length_eq_zero_iff.mp h, totals]
  | succ n =>
    have last : (totals 0 ws).getD n 0 = (0 + total (ws.take (n + 1))) % 4294967296 :=
      getD_totals (by omega)
    rw [List.take_of_length_le (Nat.le_of_eq h), Nat.zero_add] at last
    rw [← last, List.getLastD_eq_getLast?, List.getLast?_eq_getElem?, length_totals, h,
      List.getD_eq_getElem?_getD, Nat.add_sub_cancel]

/-- The place that halving leaves is below, or the first one, and the place behind it is not below,
or the end. The row that is halved ends in front of such a place or, after a half has been left
that has one place more than the other, with it. -/
theorem halve_spec {below : Nat → Bool} {n : Nat} (steps : Nat) {base size : Nat} (pos : 0 < size)
    (enough : size ≤ steps + 1) (low : base = 0 ∨ below base = true)
    (high : base + size = n ∨ below (base + size) = false ∨
      2 ≤ size ∧ below (base + size - 1) = false) {place : Nat}
    (h : halve below steps base size = place) :
    place < base + size ∧ (place = 0 ∨ below place = true) ∧
      (place + 1 = n ∨ below (place + 1) = false) := by
  induction steps generalizing base size with
  | zero =>
    obtain rfl : size = 1 := by omega
    obtain rfl : base = place := h
    exact ⟨Nat.lt_succ_self base, low, by simpa using high⟩
  | succ steps ih =>
    simp only [halve] at h
    split at h
    · obtain rfl : size = 1 := by omega
      subst h
      exact ⟨Nat.lt_succ_self base, low, by simpa using high⟩
    · cases middle : below (base + size / 2) with
      | false =>
        rw [middle, if_neg Bool.false_ne_true] at h
        have high' : below (base + (size - size / 2)) = false ∨
            2 ≤ size - size / 2 ∧ below (base + (size - size / 2) - 1) = false := by
          rcases Nat.mod_two_eq_zero_or_one size with even | odd
          · have same : base + (size - size / 2) = base + size / 2 := by omega
            exact .inl (same ▸ middle)
          · have same : base + (size - size / 2) - 1 = base + size / 2 := by omega
            exact .inr ⟨by omega, same ▸ middle⟩
        obtain ⟨inside, spec⟩ := ih (by omega) (by omega) low (.inr high') h
        exact ⟨by omega, spec⟩
      | true =>
        rw [middle, if_pos rfl] at h
        have same : base + size / 2 + (size - size / 2) = base + size := by omega
        rw [← same]
        refine ih (by omega) (by omega) (.inr middle) ?_ h
        rw [same]
        refine high.imp_right (Or.imp_right fun last => ⟨?_, last.2⟩)
        -- The upper half is not the last place alone, since that is not below.
        refine Nat.le_of_not_lt fun one => ?_
        have here : base + size - 1 = base + size / 2 := by omega
        rw [here, middle] at last
        cases last.2

/-- The place that is found is not below, unless it is the end, and the one in front of it is. -/
theorem search_spec {below : Nat → Bool} {size place : Nat} (h : search below size = place) :
    place ≤ size ∧ (place < size → below place = false) ∧
      ∀ i, place = i + 1 → below i = true := by
  simp only [search] at h
  split at h
  · subst h
    exact ⟨Nat.zero_le _, by omega, nofun⟩
  · generalize halved : halve below size 0 size = base at h
    obtain ⟨inside, low, high⟩ := halve_spec size (by omega) (by omega) (.inl rfl)
      (.inl (Nat.zero_add size)) halved
    rw [Nat.zero_add] at inside
    split at h
    · rename_i isBelow
      subst h
      refine ⟨inside, fun more => high.resolve_left (by omega), fun i hi => ?_⟩
      obtain rfl : base = i := by omega
      exact isBelow
    · rename_i notBelow
      obtain rfl : base = place := h
      obtain rfl : base = 0 := low.resolve_right notBelow
      exact ⟨Nat.zero_le _, fun _ => Bool.eq_false_iff.mpr notBelow, nofun⟩

/-- Two totals in a row that differ have a weight between them, even where 32 bits do not hold the
sum. -/
theorem placeOf_pos {weights : List Nat} {c : Nat} (h : c < (totals 0 weights).getLastD 0) :
    ∃ w, weights[placeOf c (totals 0 weights)]? = some w ∧ 0 < w := by
  generalize found : placeOf c (totals 0 weights) = place
  obtain ⟨bound, above, below⟩ := search_spec found
  simp only [decide_eq_false_iff_not, decide_eq_true_eq, length_totals] at bound above below
  have some : 0 < weights.length := by
    refine List.length_pos_iff.mpr fun none => ?_
    subst none
    cases h
  have exceeds : c < (totals 0 weights).getD place 0 := by
    rcases Nat.lt_or_eq_of_le bound with inner | rfl
    · exact Nat.lt_of_not_le (above inner)
    · have all : weights.take (weights.length - 1 + 1) = weights :=
        List.take_of_length_le (by omega)
      rwa [getD_totals (by omega), all, Nat.zero_add, ← getLastD_totals]
  have within : place < weights.length := by omega
  refine ⟨weights[place], List.getElem?_eq_getElem within, Nat.pos_of_ne_zero fun weightless => ?_⟩
  rw [getD_totals within, List.take_succ_eq_append_getElem within, total_append,
    weightless] at exceeds
  cases place with
  | zero => simp at exceeds
  | succ i =>
    have reached := below i rfl
    rw [getD_totals (by omega)] at reached
    simp at exceeds
    omega

/-- What has no weight is not drawn. -/
theorem weighted_pos {weights : List Nat} {s : Stream} {i : Nat}
    (h : (weighted weights s).1 = some i) : ∃ w, weights[i]? = some w ∧ 0 < w := by
  simp only [weighted] at h
  split at h
  · cases h
  · rename_i some
    cases h
    exact placeOf_pos (attempt_lt (Nat.pos_of_ne_zero some) attempts s)

/-- Nothing is drawn if the sum of the weights is 0 in 32 bits, and only then. -/
theorem weighted_eq_none_iff {weights : List Nat} {s : Stream} :
    (weighted weights s).1 = none ↔ total weights % 4294967296 = 0 := by
  rw [← getLastD_totals]
  simp only [weighted]
  split
  · rename_i zero
    exact iff_of_true rfl zero
  · rename_i some
    exact iff_of_false nofun some

end Stream

instance : Generator Stream where
  index := Stream.index
  shuffle := Stream.shuffle
  weighted := Stream.weighted
  index_zero := Stream.index_zero
  exists_index := Stream.exists_index
  index_lt := Stream.index_lt
  shuffle_perm := Stream.shuffle_perm
  shuffle_map := Stream.shuffle_map
  weighted_pos := Stream.weighted_pos
  weighted_some weight fits s none := by
    rw [Stream.weighted_eq_none_iff, Nat.mod_eq_of_lt fits] at none
    omega

end Chance
end CardBattle
