import CardBattle.Proofs.Names
import CardBattle.Proofs.Roundtrip
import CardBattle.Tactics

/-!
# CardBattle.Proofs.BehaviorTexts

The rows of behaviors: weights, results of rules, and conditions. Each of them is a pair, cut at
its first comma, and read as what its two fields spell.

* `WeightSlot.Spells`, `RuleResult.Spells`, `Condition.Spells`: the fields of a row.
* `WeightSlot.Wrong`, `RuleResult.Wrong`, `Condition.Wrong`: what is wrong with other texts.
* `RuleResult.slicedNumber?`: the number of a slot by offsets in bytes, where no cut fails.
* `Tactics.rows_of_behaviors`: the three grammars.
-/

namespace CardBattle

open Text Numeral

variable {text : List Char}

/-! ## Weights -/

namespace Tactics

theorem weight_of_isInteger {n : Int} (h : IsInteger text n) : weight text = .ok n := by
  rw [weight, isInteger_iff.mp h]

theorem weight_of_none (h : ∀ n, ¬ IsInteger text n) :
    weight text = .error (.invalidWeight (String.ofList (trim text))) := by
  rw [weight, isInteger_none_iff.mp h]

end Tactics

namespace WeightSlot

/-- The fields of a weight: the id of a skill, which is not empty, and a numeral. -/
inductive Spells (slot : WeightSlot) : List (List Char) → Prop
  | fields {numeral : List Char} (id : Cell ',' slot.skillId.toList)
      (filled : slot.skillId.toList ≠ []) (read : int32? numeral = some slot.weight) :
      Spells slot [slot.skillId.toList, numeral]

inductive Wrong (text : List Char) : TacticsFault → Prop
  | single (plain : ',' ∉ text) : Wrong text (.weightFormat (String.ofList text))
  | blank {id rest : List Char} (first : ',' ∉ id) (parts : text = id ++ ',' :: rest)
      (blank : Blank id) : Wrong text (.weightFormat (String.ofList text))
  | weight {id rest : List Char} (first : ',' ∉ id) (parts : text = id ++ ',' :: rest)
      (visible : ¬ Blank id) (none : ∀ n, ¬ IsInteger rest n) :
      Wrong text (.invalidWeight (String.ofList (trim rest)))

theorem read_of_spells {slot : WeightSlot} {fields : List (List Char)} (h : Spells slot fields)
    (row : Row ',' text fields) : read text = .ok slot := by
  obtain ⟨id, filled, readWeight⟩ := h
  obtain ⟨a, b, found, left, rfl⟩ :=
    exists_cut_of_row (by decide) id (plain_of_int32? readWeight).tight row
  have visible : slot.skillId.toList.isEmpty = false := List.isEmpty_eq_false_iff.mpr filled
  simp only [read, found, left, visible, Tactics.weight_of_isInteger (isInteger_iff.mpr readWeight),
    String.ofList_toList]
  rfl

theorem read_of_wrong {fault : TacticsFault} (h : Wrong text fault) :
    read text = .error fault := by
  cases h with
  | single plain => simp only [read, cut_eq_none_iff.mpr plain]
  | blank first parts blank =>
    simp only [read, cut_eq_some_iff.mpr ⟨first, parts⟩, trim_of_blank blank]
    rfl
  | @weight id rest first parts visible none =>
    have filled : (trim id).isEmpty = false := by
      rw [List.isEmpty_eq_false_iff]
      exact fun none => visible (trim_eq_nil_iff.mp none)
    simp only [read, cut_eq_some_iff.mpr ⟨first, parts⟩, filled, Tactics.weight_of_none none]
    rfl

theorem read_total (text : List Char) :
    (∃ slot, ∃ fields, Spells slot fields ∧ Row ',' text fields) ∨ ∃ fault, Wrong text fault := by
  cases found : cut ',' text with
  | none => exact .inr ⟨_, .single (cut_eq_none_iff.mp found)⟩
  | some parts =>
    obtain ⟨id, rest⟩ := parts
    obtain ⟨first, whole⟩ := cut_eq_some_iff.mp found
    by_cases blank : Blank id
    · exact .inr ⟨_, .blank first whole blank⟩
    · obtain ⟨n, integer⟩ | none := integer_total rest
      · have cell : Cell ',' (trim id) := cell_trim (by decide) first
        have filled : trim id ≠ [] := fun none => blank (trim_eq_nil_iff.mp none)
        have row := row_of_cut found
        rw [← String.toList_ofList (l := trim id)] at cell filled row
        exact .inl ⟨⟨String.ofList (trim id), n⟩, _,
          .fields cell filled (isInteger_iff.mp integer), row⟩
      · exact .inr ⟨_, .weight first whole blank none⟩

/-- What every weight that is read satisfies. -/
structure Writable (slot : WeightSlot) : Prop where
  id : Cell ',' slot.skillId.toList
  filled : slot.skillId.toList ≠ []
  weight : Amount.InRange slot.weight

theorem writable_iff {slot : WeightSlot} : Writable slot ↔ ∃ fields, Spells slot fields := by
  constructor
  · rintro ⟨id, filled, weight⟩
    exact ⟨_, .fields id filled (int32?_eq_some.mpr ⟨signed?_signedDecimal _, weight⟩)⟩
  · rintro ⟨_, id, filled, readWeight⟩
    exact ⟨id, filled, (int32?_eq_some.mp readWeight).2⟩

end WeightSlot

/-! ## Bytes -/

namespace Text

/-- The number of bytes of a text. -/
def size (cs : List Char) : Nat := (cs.map Char.utf8Size).sum

/-- The first `n` bytes of a text. There is no cut inside of a character or behind the end. -/
def sliceTo? : Nat → List Char → Option (List Char)
  | 0, _ => some []
  | _ + 1, [] => none
  | n + 1, c :: cs =>
    if c.utf8Size ≤ n + 1 then (sliceTo? (n + 1 - c.utf8Size) cs).map (c :: ·) else none

/-- What follows the first `n` bytes of a text. -/
def sliceFrom? : Nat → List Char → Option (List Char)
  | 0, cs => some cs
  | _ + 1, [] => none
  | n + 1, c :: cs => if c.utf8Size ≤ n + 1 then sliceFrom? (n + 1 - c.utf8Size) cs else none

theorem size_cons (c : Char) (cs : List Char) : size (c :: cs) = c.utf8Size + size cs := by
  rw [size, List.map_cons, List.sum_cons, size]

theorem size_of_sliceTo? {n : Nat} {cs front : List Char} (h : sliceTo? n cs = some front) :
    size front = n ∧ front <+: cs := by
  induction cs generalizing n front with
  | nil =>
    cases n with
    | zero =>
      cases h
      exact ⟨rfl, List.nil_prefix⟩
    | succ n => cases h
  | cons c cs ih =>
    cases n with
    | zero =>
      cases h
      exact ⟨rfl, List.nil_prefix⟩
    | succ n =>
      rw [sliceTo?] at h
      split at h
      · rename_i within
        obtain ⟨front, found, rfl⟩ := Option.map_eq_some_iff.mp h
        obtain ⟨bytes, before⟩ := ih found
        refine ⟨?_, List.cons_prefix_cons.mpr ⟨rfl, before⟩⟩
        rw [size_cons, bytes]
        omega
      · cases h

/-- Both cuts are possible between two parts of a text. -/
theorem slice_append (front rest : List Char) :
    sliceTo? (size front) (front ++ rest) = some front ∧
      sliceFrom? (size front) (front ++ rest) = some rest := by
  induction front with
  | nil => exact ⟨by cases rest <;> rfl, by cases rest <;> rfl⟩
  | cons c front ih =>
    obtain ⟨n, one⟩ : ∃ n, size (c :: front) = n + 1 := by
      have positive := c.utf8Size_pos
      have sum := size_cons c front
      exact ⟨size (c :: front) - 1, by omega⟩
    have rest' : n + 1 - c.utf8Size = size front := by
      have sum := size_cons c front
      omega
    have within : c.utf8Size ≤ n + 1 := by
      have sum := size_cons c front
      omega
    rw [one, List.cons_append, sliceTo?, sliceFrom?, if_pos within, if_pos within, rest', ih.1,
      ih.2]
    exact ⟨rfl, rfl⟩

/-- There is a cut after `n` bytes exactly between two parts of which the first has `n` bytes. -/
theorem sliceTo?_eq_some_iff {n : Nat} {cs front : List Char} :
    sliceTo? n cs = some front ↔ size front = n ∧ front <+: cs := by
  refine ⟨size_of_sliceTo?, ?_⟩
  rintro ⟨rfl, rest, rfl⟩
  exact (slice_append front rest).1

/-- A plain text has as many bytes as characters. -/
theorem Plain.size_eq {cs : List Char} (h : Plain cs) : size cs = cs.length := by
  induction cs with
  | nil => rfl
  | cons c cs ih =>
    obtain ⟨plain, others⟩ := plain_cons.mp h
    have one : c.utf8Size = 1 := by
      have one := forall_plain (p := fun c => c.utf8Size == 1) (by decide +kernel) plain
      rwa [beq_iff_eq] at one
    rw [size_cons, one, ih others, List.length_cons, Nat.add_comm]

theorem length_of_sameLetters {a b : List Char} (same : sameLetters a b = true) :
    a.length = b.length := by
  rw [sameLetters, beq_iff_eq] at same
  have length := congrArg List.length same
  rwa [List.length_map, List.length_map] at length

end Text

/-! ## Results of rules -/

namespace RuleResult

/-- The word `skill` in any case, and behind it an unsigned numeral in the range of places. -/
def Addresses (text : List Char) (n : Nat) : Prop :=
  ∃ word digits, sameLetters "skill".toList word = true ∧ Unsigned digits n ∧
    n ≤ 18446744073709551615 ∧ text = word ++ digits

theorem slotNumber?_eq_some_iff {n : Nat} : slotNumber? text = some n ↔ Addresses text n := by
  constructor
  · intro h
    rw [slotNumber?] at h
    split at h
    · rename_i word
      obtain ⟨digits, range⟩ := nat64?_eq_some.mp h
      exact ⟨_, _, word, digits, range, (List.take_append_drop 5 text).symm⟩
    · cases h
  · rintro ⟨word, digits, named, unsigned, range, rfl⟩
    have five : word.length = 5 := (length_of_sameLetters named).symm
    rw [slotNumber?, List.take_left' five, List.drop_left' five, if_pos named]
    exact nat64?_eq_some.mpr ⟨unsigned, range⟩

/-- The number of a slot as it is found by offsets in bytes. The first cut may fail and then there
is no number; `none` stands for a second cut that fails. -/
def slicedNumber? (text : List Char) : Option (Option Nat) :=
  match sliceTo? 5 text with
  | none => some none
  | some front =>
    if sameLetters "skill".toList front then (sliceFrom? 5 text).map nat64? else some none

theorem slice_of_named {word : List Char} (named : sameLetters "skill".toList word = true)
    (digits : List Char) :
    sliceTo? 5 (word ++ digits) = some word ∧ sliceFrom? 5 (word ++ digits) = some digits := by
  have plain : Plain word := Plain.of_sameLetters (by decide) named
  have five : size word = 5 := plain.size_eq.trans (length_of_sameLetters named).symm
  rw [← five]
  exact slice_append word digits

/-- No text makes a cut fail, and the cuts find the number. -/
theorem slicedNumber?_eq (text : List Char) : slicedNumber? text = some (slotNumber? text) := by
  by_cases named : sameLetters "skill".toList (text.take 5) = true
  · -- The word is plain, so that five characters are five bytes.
    have slice := slice_of_named named (text.drop 5)
    rw [List.take_append_drop] at slice
    simp only [slicedNumber?, slice.1, slice.2, slotNumber?, if_pos named, Option.map_some]
  · -- Another front of five bytes does not say `skill`: if it did, it had five characters.
    rw [slotNumber?, if_neg named, slicedNumber?]
    split
    · rfl
    · rename_i front found
      refine if_neg fun wrong => named ?_
      obtain ⟨-, rest, rfl⟩ := sliceTo?_eq_some_iff.mp found
      have five : front.length = 5 := (length_of_sameLetters wrong).symm
      rw [List.take_left' five]
      exact wrong

/-- The fields of a result: the word `skill` with the number of a slot, counted from 1, and the
bonus. -/
inductive Spells (r : RuleResult) : List (List Char) → Prop
  | fields {slot bonus : List Char} (addresses : Addresses slot (r.slot + 1))
      (read : int32? bonus = some r.bonus) : Spells r [slot, bonus]

inductive Wrong (text : List Char) : TacticsFault → Prop
  | single (plain : ',' ∉ text) : Wrong text (.resultFormat (String.ofList text))
  | slot {slot rest : List Char} (first : ',' ∉ slot) (parts : text = slot ++ ',' :: rest)
      (none : ∀ n, ¬ Addresses (trim slot) n) : Wrong text (.resultFormat (String.ofList text))
  | zero {slot rest : List Char} (first : ',' ∉ slot) (parts : text = slot ++ ',' :: rest)
      (zero : Addresses (trim slot) 0) : Wrong text (.invalidSlot 0)
  | bonus {slot rest : List Char} {n : Nat} (first : ',' ∉ slot)
      (parts : text = slot ++ ',' :: rest) (addresses : Addresses (trim slot) (n + 1))
      (none : ∀ n, ¬ IsInteger rest n) :
      Wrong text (.invalidWeight (String.ofList (trim rest)))

theorem Addresses.plain {n : Nat} (h : Addresses text n) : Plain text := by
  obtain ⟨word, digits, named, unsigned, -, rfl⟩ := h
  exact plain_append.mpr ⟨Plain.of_sameLetters (by decide) named, unsigned.plain⟩

theorem read_of_spells {r : RuleResult} {fields : List (List Char)} (h : Spells r fields)
    (row : Row ',' text fields) : read text = .ok r := by
  obtain ⟨addresses, readBonus⟩ := h
  obtain ⟨a, b, found, left, rfl⟩ :=
    exists_cut_of_row (by decide) (addresses.plain.cell (by decide))
      (plain_of_int32? readBonus).tight row
  simp only [read, found, left, slotNumber?_eq_some_iff.mpr addresses,
    Tactics.weight_of_isInteger (isInteger_iff.mpr readBonus)]
  rfl

theorem slotNumber?_eq_none_iff : slotNumber? text = none ↔ ∀ n, ¬ Addresses text n := by
  simp only [← slotNumber?_eq_some_iff, Option.eq_none_iff_forall_not_mem, Option.mem_def]

theorem read_of_wrong {fault : TacticsFault} (h : Wrong text fault) :
    read text = .error fault := by
  cases h with
  | single plain => simp only [read, cut_eq_none_iff.mpr plain]
  | slot first parts none =>
    simp only [read, cut_eq_some_iff.mpr ⟨first, parts⟩, slotNumber?_eq_none_iff.mpr none]
  | zero first parts zero =>
    simp only [read, cut_eq_some_iff.mpr ⟨first, parts⟩, slotNumber?_eq_some_iff.mpr zero]
  | bonus first parts addresses none =>
    simp only [read, cut_eq_some_iff.mpr ⟨first, parts⟩, slotNumber?_eq_some_iff.mpr addresses,
      Tactics.weight_of_none none]
    rfl

theorem read_total (text : List Char) :
    (∃ r, ∃ fields, Spells r fields ∧ Row ',' text fields) ∨ ∃ fault, Wrong text fault := by
  cases found : cut ',' text with
  | none => exact .inr ⟨_, .single (cut_eq_none_iff.mp found)⟩
  | some parts =>
    obtain ⟨slot, rest⟩ := parts
    obtain ⟨first, whole⟩ := cut_eq_some_iff.mp found
    cases number : slotNumber? (trim slot) with
    | none => exact .inr ⟨_, .slot first whole (slotNumber?_eq_none_iff.mp number)⟩
    | some n =>
      have addresses := slotNumber?_eq_some_iff.mp number
      cases n with
      | zero => exact .inr ⟨_, .zero first whole addresses⟩
      | succ n =>
        obtain ⟨bonus, integer⟩ | none := integer_total rest
        · exact .inl ⟨⟨n, bonus⟩, _, .fields addresses (isInteger_iff.mp integer),
            row_of_cut found⟩
        · exact .inr ⟨_, .bonus first whole addresses none⟩

/-- What every result that is read satisfies. -/
structure Writable (r : RuleResult) : Prop where
  slot : r.slot + 1 ≤ 18446744073709551615
  bonus : Amount.InRange r.bonus

theorem writable_iff {r : RuleResult} : Writable r ↔ ∃ fields, Spells r fields := by
  constructor
  · rintro ⟨slot, bonus⟩
    exact ⟨_, .fields ⟨_, _, sameLetters_refl _, unsigned_decimal _, slot, rfl⟩
      (int32?_eq_some.mpr ⟨signed?_signedDecimal _, bonus⟩)⟩
  · rintro ⟨_, ⟨_, _, _, _, slot, _⟩, readBonus⟩
    exact ⟨slot, (int32?_eq_some.mp readBonus).2⟩

end RuleResult

/-! ## Conditions -/

namespace Condition

/-- The fields of a condition: the name of its kind, and the name of a buff or a numeral. -/
inductive Spells : Condition → List (List Char) → Prop
  | number {kind : ConditionKind} {name numeral : List Char} {x : Single}
      (asks : kind.asksForBuff = false)
      (named : sameLetters (Vocabulary.word kind).toList name = true)
      (read : Binary.read? numeral = some x) : Spells ⟨kind, .number x⟩ [name, numeral]
  | buff {kind : ConditionKind} {name buffName : List Char} {buff : BuffKind}
      (asks : kind.asksForBuff = true)
      (named : sameLetters (Vocabulary.word kind).toList name = true)
      (buffNamed : sameLetters (Vocabulary.word buff).toList buffName = true) :
      Spells ⟨kind, .buff buff⟩ [name, buffName]

inductive Wrong (text : List Char) : ConditionFault → Prop
  | single (plain : ',' ∉ text) : Wrong text (.format (String.ofList text))
  | kind {name rest : List Char} (first : ',' ∉ name) (parts : text = name ++ ',' :: rest)
      (unknown : ∀ k : ConditionKind, sameLetters (Vocabulary.word k).toList (trim name) = false) :
      Wrong text (.unknownCondition (String.ofList (trim name)))
  | number {name rest : List Char} {kind : ConditionKind} (first : ',' ∉ name)
      (parts : text = name ++ ',' :: rest) (asks : kind.asksForBuff = false)
      (named : sameLetters (Vocabulary.word kind).toList (trim name) = true)
      (none : ∀ x : Single, ¬ IsNumber rest x) :
      Wrong text (.invalidValue kind (String.ofList (trim rest)))
  | buff {name rest : List Char} {kind : ConditionKind} (first : ',' ∉ name)
      (parts : text = name ++ ',' :: rest) (asks : kind.asksForBuff = true)
      (named : sameLetters (Vocabulary.word kind).toList (trim name) = true)
      (unknown : ∀ b : BuffKind, sameLetters (Vocabulary.word b).toList (trim rest) = false) :
      Wrong text (.invalidValue kind (String.ofList (trim rest)))

theorem read_of_spells {c : Condition} {fields : List (List Char)} (h : Spells c fields)
    (row : Row ',' text fields) : read text = .ok c := by
  cases h with
  | number asks named readNumber =>
    obtain ⟨a, b, found, rfl, rfl⟩ :=
      exists_cut_of_row (by decide) ((Vocabulary.plain_of_names named).1.cell (by decide))
        (Binary.plain_of_read? readNumber).1.tight row
    rw [← Vocabulary.read?_eq_some_iff] at named
    simp only [read, found, named, readValue?, asks, readNumber]
    rfl
  | buff asks named buffNamed =>
    obtain ⟨a, b, found, rfl, rfl⟩ :=
      exists_cut_of_row (by decide) ((Vocabulary.plain_of_names named).1.cell (by decide))
        (Vocabulary.plain_of_names buffNamed).1.tight row
    rw [← Vocabulary.read?_eq_some_iff] at named buffNamed
    simp only [read, found, named, readValue?, asks, buffNamed]
    rfl

theorem read_of_wrong {fault : ConditionFault} (h : Wrong text fault) :
    read text = .error fault := by
  cases h with
  | single plain => simp only [read, cut_eq_none_iff.mpr plain]
  | kind first parts unknown =>
    rw [← Vocabulary.read?_eq_none_iff] at unknown
    simp only [read, cut_eq_some_iff.mpr ⟨first, parts⟩, unknown]
  | number first parts asks named none =>
    rw [← Vocabulary.read?_eq_some_iff] at named
    rw [isNumber_none_iff] at none
    simp only [read, cut_eq_some_iff.mpr ⟨first, parts⟩, named, readValue?, asks, none]
    rfl
  | buff first parts asks named unknown =>
    rw [← Vocabulary.read?_eq_some_iff] at named
    rw [← Vocabulary.read?_eq_none_iff] at unknown
    simp only [read, cut_eq_some_iff.mpr ⟨first, parts⟩, named, readValue?, asks, unknown]
    rfl

theorem read_total (text : List Char) :
    (∃ c, ∃ fields, Spells c fields ∧ Row ',' text fields) ∨ ∃ fault, Wrong text fault := by
  cases found : cut ',' text with
  | none => exact .inr ⟨_, .single (cut_eq_none_iff.mp found)⟩
  | some parts =>
    obtain ⟨name, rest⟩ := parts
    obtain ⟨first, whole⟩ := cut_eq_some_iff.mp found
    cases known : (Vocabulary.read? (trim name) : Option ConditionKind) with
    | none => exact .inr ⟨_, .kind first whole (Vocabulary.read?_eq_none_iff.mp known)⟩
    | some kind =>
      have named := Vocabulary.read?_eq_some_iff.mp known
      cases asks : kind.asksForBuff with
      | false =>
        obtain ⟨x, number⟩ | none := number_total rest
        · exact .inl ⟨⟨kind, .number x⟩, _, .number asks named (isNumber_iff.mp number),
            row_of_cut found⟩
        · exact .inr ⟨_, .number first whole asks named none⟩
      | true =>
        cases buff : (Vocabulary.read? (trim rest) : Option BuffKind) with
        | none =>
          exact .inr ⟨_, .buff first whole asks named (Vocabulary.read?_eq_none_iff.mp buff)⟩
        | some b =>
          exact .inl ⟨⟨kind, .buff b⟩, _,
            .buff asks named (Vocabulary.read?_eq_some_iff.mp buff), row_of_cut found⟩

/-- What every condition that is read satisfies. -/
def Writable (c : Condition) : Prop :=
  match c.value with
  | .number x => c.kind.asksForBuff = false ∧ x.IsPoint
  | .buff _ => c.kind.asksForBuff = true

theorem writable_iff {c : Condition} : Writable c ↔ ∃ fields, Spells c fields := by
  constructor
  · intro writable
    obtain ⟨kind, value⟩ := c
    cases value with
    | number x =>
      exact ⟨_, .number writable.1 (sameLetters_refl _)
        (Binary.read?_toText Format.single_isProper writable.2)⟩
    | buff b => exact ⟨_, .buff writable (sameLetters_refl _) (sameLetters_refl _)⟩
  · rintro ⟨_, spells⟩
    cases spells with
    | number asks named read => exact ⟨asks, Binary.isPoint_of_read? Format.single_isProper read⟩
    | buff asks named buffNamed => exact asks

end Condition

/-! ## The rows of behaviors -/

/-- The rows of behaviors, and the number of a slot, where no text makes a cut in bytes fail. -/
structure BehaviorRows (text : List Char) : Prop where
  weights : Grammar WeightSlot.read WeightSlot.Spells WeightSlot.Wrong WeightSlot.Writable text
  results : Grammar RuleResult.read RuleResult.Spells RuleResult.Wrong RuleResult.Writable text
  conditions : Grammar Condition.read Condition.Spells Condition.Wrong Condition.Writable text
  slices : RuleResult.slicedNumber? text = some (RuleResult.slotNumber? text)

/-- **Rows of behaviors**: the three grammars, for any text. -/
theorem Tactics.rows_of_behaviors (text : String) : BehaviorRows text.toList where
  weights := grammar_of_total WeightSlot.read_of_spells WeightSlot.read_of_wrong
    (WeightSlot.read_total _) WeightSlot.writable_iff
  results := grammar_of_total RuleResult.read_of_spells RuleResult.read_of_wrong
    (RuleResult.read_total _) RuleResult.writable_iff
  conditions := grammar_of_total Condition.read_of_spells Condition.read_of_wrong
    (Condition.read_total _) Condition.writable_iff
  slices := RuleResult.slicedNumber?_eq _

end CardBattle
