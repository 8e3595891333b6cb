import CardBattle.Proofs.Directions
import CardBattle.Proofs.Names

/-!
# CardBattle.Proofs.BuffTexts

Buffs as text. A text of four fields is a buff spec, and the parameter of a spec is read once
more when the buff is made, as its kind demands.

* `BuffSpec.Spells`, `BuffSpec.Wrong`: the fields of a spec, and what is wrong with other texts.
* `BuffKind.form`: how a kind reads its parameter.
* `BuffSpec.Means`, `BuffSpec.Unreadable`: what a parameter says, and why it says nothing.
* `BuffSpec.grammar`: from a text to its spec, and from the spec to a buff.
-/

namespace CardBattle

open Text Numeral

/-! ## Forms of parameters -/

/-- How a parameter is read. -/
inductive ParameterForm where
  | ignored
  | direction
  | number
  | integer
  | resistance
deriving DecidableEq

def BuffKind.form : BuffKind → ParameterForm
  | .guard | .cursed | .gifted | .feared => .ignored
  | .swift => .direction
  | .blessed | .lifesteel | .increaseDmg | .boostDmg | .fragile | .bleeding | .reduceAtk => .number
  | .reqChange => .integer
  | .increaseRes | .reduceRes => .resistance

namespace BuffSpec

variable {text parameter : List Char}

/-- A percentage against all elements, or against the one whose name stands before a colon. -/
def IsResistance (parameter : List Char) : Option Element → Int → Prop
  | none, n => IsInteger parameter n
  | some e, n => ∃ name numeral, sameLetters (Vocabulary.word e).toList name = true ∧
      int32? numeral = some n ∧ Row ':' parameter [name, numeral]

/-! ## Resistances -/

theorem resistance_of_isResistance {scope : Option Element} {n : Int}
    (h : IsResistance parameter scope n) : resistance parameter = .ok (scope, n) := by
  cases scope with
  | none =>
    -- An integer has no colon, so the two ways to write a resistance exclude each other.
    have uncut : cut ':' parameter = none := cut_eq_none_iff.mpr (h.not_mem (by decide) (by decide))
    simp only [resistance, uncut, number, isInteger_iff.mp h]
  | some e =>
    obtain ⟨name, numeral, named, read, row⟩ := h
    have cell : Cell ':' name := (Vocabulary.plain_of_names named).1.cell (by decide)
    obtain ⟨a, b, found, rfl, rfl⟩ :=
      exists_cut_of_row (by decide) cell (plain_of_int32? read).tight row
    simp only [resistance, found, Vocabulary.read?_eq_some_iff.mpr named, number, read]

/-- What is wrong with a parameter of each form. -/
inductive Unreadable (parameter : List Char) : ParameterForm → BuffFault → Prop
  | number (none : ∀ x : Single, ¬ IsNumber parameter x) :
      Unreadable parameter .number (.invalidNumber "parameter" (String.ofList parameter))
  | integer (none : ∀ n, ¬ IsInteger parameter n) :
      Unreadable parameter .integer
        (.invalidNumber "requirement modifier" (String.ofList parameter))
  | percent (plain : ':' ∉ parameter) (none : ∀ n, ¬ IsInteger parameter n) :
      Unreadable parameter .resistance (.invalidNumber "resistance" (String.ofList parameter))
  | element {name rest : List Char} (first : ':' ∉ name) (parts : parameter = name ++ ':' :: rest)
      (unknown : ∀ e : Element, sameLetters (Vocabulary.word e).toList (trim name) = false) :
      Unreadable parameter .resistance (.invalidResistance (String.ofList parameter))
  | percentOf {name rest : List Char} {e : Element} (first : ':' ∉ name)
      (parts : parameter = name ++ ':' :: rest)
      (named : sameLetters (Vocabulary.word e).toList (trim name) = true)
      (none : ∀ n, ¬ IsInteger rest n) :
      Unreadable parameter .resistance (.invalidNumber "resistance" (String.ofList rest))

theorem resistance_of_unreadable {fault : BuffFault} (h : Unreadable parameter .resistance fault) :
    resistance parameter = .error fault := by
  cases h with
  | percent plain none =>
    rw [isInteger_none_iff] at none
    simp only [resistance, cut_eq_none_iff.mpr plain, number, none]
  | element first parts unknown =>
    rw [← Vocabulary.read?_eq_none_iff] at unknown
    simp only [resistance, cut_eq_some_iff.mpr ⟨first, parts⟩, unknown]
  | percentOf first parts named none =>
    rw [isInteger_none_iff] at none
    rw [← Vocabulary.read?_eq_some_iff] at named
    simp only [resistance, cut_eq_some_iff.mpr ⟨first, parts⟩, named, number, none]

theorem resistance_total (parameter : List Char) :
    (∃ r : Option Element × Int, IsResistance parameter r.1 r.2) ∨
      ∃ fault, Unreadable parameter .resistance fault := by
  cases found : cut ':' parameter with
  | none =>
    cases read : int32? (trim parameter) with
    | none =>
      exact .inr ⟨_, .percent (cut_eq_none_iff.mp found) (isInteger_none_iff.mpr read)⟩
    | some n => exact .inl ⟨(none, n), isInteger_iff.mpr read⟩
  | some parts =>
    obtain ⟨name, rest⟩ := parts
    obtain ⟨first, whole⟩ := cut_eq_some_iff.mp found
    cases known : (Vocabulary.read? (trim name) : Option Element) with
    | none => exact .inr ⟨_, .element first whole (Vocabulary.read?_eq_none_iff.mp known)⟩
    | some e =>
      have named := Vocabulary.read?_eq_some_iff.mp known
      cases read : int32? (trim rest) with
      | none => exact .inr ⟨_, .percentOf first whole named (isInteger_none_iff.mpr read)⟩
      | some n =>
        exact .inl ⟨(some e, n), trim name, trim rest, named, read, row_of_cut found⟩

theorem resistance_iff (parameter : List Char) :
    (∀ r, resistance parameter = .ok r ↔ IsResistance parameter r.1 r.2) ∧
      ∀ fault, resistance parameter = .error fault ↔ Unreadable parameter .resistance fault :=
  answer_iff (fun _ => resistance_of_isResistance) (fun _ => resistance_of_unreadable)
    (resistance_total parameter)

/-! ## Parameters -/

/-- What a parameter says about the data of a buff. Nothing is accumulated or triggered yet, and
what is no direction reaches nowhere. -/
def Means (parameter : List Char) : BuffData → Prop
  | .guard | .cursed | .gifted => True
  | .feared accumulated => accumulated = 0
  | .swift reach =>
    (∃ d, Direction.Spells (SwiftReach.capitals parameter) d ∧ d.reach = reach) ∨
      (∀ d, ¬ Direction.Spells (SwiftReach.capitals parameter) d) ∧ reach = SwiftReach.nowhere
  | .lifesteel percent triggered => IsNumber parameter percent ∧ triggered = false
  | .blessed x | .increaseDmg x | .boostDmg x | .fragile x | .bleeding x | .reduceAtk x =>
    IsNumber parameter x
  | .reqChange n => IsInteger parameter n
  | .increaseRes scope n | .reduceRes scope n => IsResistance parameter scope n

theorem percent_eq_ok_iff {x : Single} : percent parameter = .ok x ↔ IsNumber parameter x := by
  rw [isNumber_iff, percent, number]
  cases (Binary.read? (trim parameter) : Option Single) <;> simp

theorem integer_eq_ok_iff {field : String} {n : Int} :
    number int32? field parameter = .ok n ↔ IsInteger parameter n := by
  rw [isInteger_iff, number]
  cases int32? (trim parameter) <;> simp

theorem means_swift_iff {reach : SwiftReach} :
    Means parameter (.swift reach) ↔ (SwiftReach.read? parameter).getD SwiftReach.nowhere = reach := by
  rw [Means, ← SwiftReach.read?_eq_some_iff, ← SwiftReach.read?_eq_none_iff]
  cases SwiftReach.read? parameter <;> simp [eq_comm]

/-- The data of a buff is what its parameter says. -/
theorem data_eq_ok_iff {kind : BuffKind} {d : BuffData} :
    data kind parameter = .ok d ↔ d.kind = kind ∧ Means parameter d := by
  constructor
  · intro h
    cases kind with
    | guard | cursed | gifted =>
      cases h
      exact ⟨rfl, trivial⟩
    | feared =>
      cases h
      exact ⟨rfl, rfl⟩
    | swift =>
      cases h
      exact ⟨rfl, means_swift_iff.mpr rfl⟩
    | lifesteel =>
      obtain ⟨x, read, rfl⟩ := map_eq_ok_iff.mp h
      exact ⟨rfl, percent_eq_ok_iff.mp read, rfl⟩
    | blessed | increaseDmg | boostDmg | fragile | bleeding | reduceAtk =>
      obtain ⟨x, read, rfl⟩ := map_eq_ok_iff.mp h
      exact ⟨rfl, percent_eq_ok_iff.mp read⟩
    | reqChange =>
      obtain ⟨n, read, rfl⟩ := map_eq_ok_iff.mp h
      exact ⟨rfl, integer_eq_ok_iff.mp read⟩
    | increaseRes | reduceRes =>
      obtain ⟨r, read, rfl⟩ := map_eq_ok_iff.mp h
      exact ⟨rfl, ((resistance_iff parameter).1 r).mp read⟩
  · rintro ⟨rfl, means⟩
    cases d with
    | guard | cursed | gifted => rfl
    | feared accumulated =>
      cases means
      rfl
    | swift reach =>
      rw [BuffData.kind, data, means_swift_iff.mp means]
    | lifesteel x triggered =>
      obtain ⟨read, rfl⟩ := means
      exact map_eq_ok_iff.mpr ⟨x, percent_eq_ok_iff.mpr read, rfl⟩
    | blessed x | increaseDmg x | boostDmg x | fragile x | bleeding x | reduceAtk x =>
      exact map_eq_ok_iff.mpr ⟨x, percent_eq_ok_iff.mpr means, rfl⟩
    | reqChange n => exact map_eq_ok_iff.mpr ⟨n, integer_eq_ok_iff.mpr means, rfl⟩
    | increaseRes scope n | reduceRes scope n =>
      exact map_eq_ok_iff.mpr ⟨(scope, n), ((resistance_iff parameter).1 _).mpr means, rfl⟩

theorem percent_eq_error_iff {fault : BuffFault} :
    percent parameter = .error fault ↔ Unreadable parameter .number fault := by
  constructor
  · intro h
    cases read : (Binary.read? (trim parameter) : Option Single) with
    | none =>
      rw [percent, number, read] at h
      cases h
      exact .number (isNumber_none_iff.mpr read)
    | some x =>
      rw [percent, number, read] at h
      cases h
  · rintro ⟨none⟩
    rw [percent, number, isNumber_none_iff.mp none]

theorem modifier_eq_error_iff {fault : BuffFault} :
    number int32? "requirement modifier" parameter = .error fault ↔
      Unreadable parameter .integer fault := by
  constructor
  · intro h
    cases read : int32? (trim parameter) with
    | none =>
      rw [number, read] at h
      cases h
      exact .integer (isInteger_none_iff.mpr read)
    | some n =>
      rw [number, read] at h
      cases h
  · rintro (_ | none)
    rw [number, isInteger_none_iff.mp none]

/-- A buff has no data exactly if its parameter is unreadable in the form of its kind. -/
theorem data_eq_error_iff {kind : BuffKind} {fault : BuffFault} :
    data kind parameter = .error fault ↔ Unreadable parameter kind.form fault := by
  cases kind with
  | guard | cursed | gifted | feared | swift =>
    constructor
    · intro h
      cases h
    · intro h
      cases h
  | blessed | lifesteel | increaseDmg | boostDmg | fragile | bleeding | reduceAtk =>
    exact map_eq_error_iff.trans percent_eq_error_iff
  | reqChange => exact map_eq_error_iff.trans modifier_eq_error_iff
  | increaseRes | reduceRes =>
    exact map_eq_error_iff.trans ((resistance_iff parameter).2 fault)

/-- A form finds something in a parameter. -/
def Readable (parameter : List Char) : ParameterForm → Prop
  | .ignored | .direction => True
  | .number => ∃ x : Single, IsNumber parameter x
  | .integer => ∃ n, IsInteger parameter n
  | .resistance => ∃ scope n, IsResistance parameter scope n

theorem exists_unreadable_iff {form : ParameterForm} :
    (∃ fault, Unreadable parameter form fault) ↔ ¬ Readable parameter form := by
  cases form with
  | ignored | direction =>
    constructor
    · rintro ⟨_, wrong⟩
      cases wrong
    · intro unreadable
      exact absurd trivial unreadable
  | number =>
    constructor
    · rintro ⟨_, wrong⟩ ⟨x, number⟩
      cases wrong with
      | number none => exact none x number
    · intro unreadable
      exact ⟨_, .number (not_exists.mp unreadable)⟩
  | integer =>
    constructor
    · rintro ⟨_, wrong⟩ ⟨n, integer⟩
      cases wrong with
      | integer none => exact none n integer
    · intro unreadable
      exact ⟨_, .integer (not_exists.mp unreadable)⟩
  | resistance =>
    constructor
    · rintro ⟨_, wrong⟩ ⟨scope, n, right⟩
      have read := resistance_of_isResistance right
      rw [resistance_of_unreadable wrong] at read
      cases read
    · intro unreadable
      obtain ⟨r, right⟩ | wrong := resistance_total parameter
      · exact absurd ⟨r.1, r.2, right⟩ unreadable
      · exact wrong

/-! ## Buffs -/

/-- The buff that a spec describes: of its kind, stacked only if the kind is, permanent if the
duration is negative, and with the data that the parameter means. -/
structure Describes (spec : BuffSpec) (b : Buff) : Prop where
  kind : b.kind = spec.kind
  stack : b.stack = if spec.kind.isStackable = true then spec.stack else 1
  duration : b.duration = if spec.duration < 0 then Buff.permanent else spec.duration
  data : Means spec.parameter.toList b.data

theorem toBuff_eq_ok_iff {spec : BuffSpec} (stacked : 1 ≤ spec.stack) {b : Buff} :
    spec.toBuff = .ok b ↔ Describes spec b := by
  rw [toBuff, map_eq_ok_iff]
  constructor
  · rintro ⟨d, read, rfl⟩
    obtain ⟨kind, means⟩ := data_eq_ok_iff.mp read
    refine ⟨kind, ?_, rfl, means⟩
    rw [← kind]
    exact ite_congr rfl (fun _ => Nat.max_eq_left stacked) fun _ => rfl
  · rintro ⟨kind, stack, duration, means⟩
    refine ⟨b.data, data_eq_ok_iff.mpr ⟨kind, means⟩, ?_⟩
    obtain ⟨d, _, _⟩ := b
    subst stack duration
    have same : d.kind = spec.kind := kind
    simp only [Buff.make, same, Nat.max_eq_left stacked]

theorem toBuff_eq_error_iff {spec : BuffSpec} {fault : BuffFault} :
    spec.toBuff = .error fault ↔ Unreadable spec.parameter.toList spec.kind.form fault :=
  map_eq_error_iff.trans data_eq_error_iff

/-! ## Specs -/

/-- The fields of a spec: a name in any case, the parameter, the stacks and the duration. Stacks out
of range stand for the nearest number in it. -/
inductive Spells (spec : BuffSpec) : List (List Char) → Prop
  | fields {name stack duration : List Char} {n : Int}
      (named : sameLetters (Vocabulary.word spec.kind).toList name = true)
      (parameter : Cell ',' spec.parameter.toList) (readStack : int64? stack = some n)
      (clamped : (spec.stack : Int) = max 1 (min (Count.greatest : Int) n))
      (readDuration : int32? duration = some spec.duration) :
      Spells spec [name, spec.parameter.toList, stack, duration]

/-- What is wrong with a text that is no spec. The fields are read from left to right. -/
inductive Wrong (text : List Char) : BuffFault → Prop
  | fieldCount (count : text.count ',' ≠ 3) : Wrong text (.fieldCount (String.ofList text))
  | unknownBuff {p q r s : List Char} (parts : Parts ',' text [p, q, r, s])
      (unknown : ∀ k : BuffKind, sameLetters (Vocabulary.word k).toList (trim p) = false) :
      Wrong text (.unknownBuff (String.ofList (trim p)))
  | stack {p q r s : List Char} {k : BuffKind} (parts : Parts ',' text [p, q, r, s])
      (named : sameLetters (Vocabulary.word k).toList (trim p) = true)
      (none : int64? (trim r) = none) :
      Wrong text (.invalidNumber "stacks" (String.ofList (trim r)))
  | duration {p q r s : List Char} {k : BuffKind} {n : Int} (parts : Parts ',' text [p, q, r, s])
      (named : sameLetters (Vocabulary.word k).toList (trim p) = true)
      (stack : int64? (trim r) = some n) (none : int32? (trim s) = none) :
      Wrong text (.invalidNumber "duration" (String.ofList (trim s)))

theorem clampStacks_eq_iff {n : Int} {k : Nat} :
    clampStacks n = k ↔ (k : Int) = max 1 (min (Count.greatest : Int) n) := by
  rw [clampStacks, Count.saturate, Count.greatest]
  omega

theorem Spells.ne_nil {spec : BuffSpec} {row : List (List Char)} (h : Spells spec row) :
    row ≠ [] := by
  cases h
  exact List.cons_ne_nil _ _

theorem Spells.cells {spec : BuffSpec} {row : List (List Char)} (h : Spells spec row) :
    ∀ f ∈ row, Cell ',' f := by
  obtain ⟨named, cell, readStack, -, readDuration⟩ := h
  simp only [List.forall_mem_cons, List.not_mem_nil, false_implies, implies_true, and_true]
  exact ⟨(Vocabulary.plain_of_names named).1.cell (by decide), cell,
    (plain_of_int64? readStack).cell (by decide), (plain_of_int32? readDuration).cell (by decide)⟩

theorem read_of_spells {spec : BuffSpec} {row : List (List Char)} (spells : Spells spec row)
    (written : Row ',' text row) : read text = .ok spec := by
  have found := (row_iff (by decide) spells.ne_nil spells.cells).mp written
  obtain ⟨named, -, readStack, clamped, readDuration⟩ := spells
  simp only [read, found, Vocabulary.read?_eq_some_iff.mpr named, number,
    (plain_of_int64? readStack).tight.trim_eq, readStack,
    (plain_of_int32? readDuration).tight.trim_eq, readDuration, clampStacks_eq_iff.mpr clamped,
    String.ofList_toList]

theorem read_of_wrong {fault : BuffFault} (h : Wrong text fault) :
    read text = .error fault := by
  cases h with
  | fieldCount count =>
    unfold read
    split
    · rename_i four
      exact absurd (Nat.succ.inj (count_of_map_trim_fields four)) count
    · rfl
  | unknownBuff parts unknown =>
    rw [← Vocabulary.read?_eq_none_iff] at unknown
    simp only [read, parts.fields_eq, List.map_cons, List.map_nil, unknown]
  | stack parts named none =>
    rw [← Vocabulary.read?_eq_some_iff] at named
    simp only [read, parts.fields_eq, List.map_cons, List.map_nil, named, number, trim_trim, none]
  | duration parts named stack none =>
    rw [← Vocabulary.read?_eq_some_iff] at named
    simp only [read, parts.fields_eq, List.map_cons, List.map_nil, named, number, trim_trim, stack,
      none]

theorem read_total (text : List Char) :
    (∃ spec, ∃ fields, Spells spec fields ∧ Row ',' text fields) ∨ ∃ fault, Wrong text fault := by
  by_cases count : text.count ',' = 3
  · have length := length_fields ',' text
    rw [count] at length
    obtain ⟨p, q, r, s, four⟩ := List.length_eq_four.mp length
    have parts := fields_eq_iff.mp four
    cases known : (Vocabulary.read? (trim p) : Option BuffKind) with
    | none => exact .inr ⟨_, .unknownBuff parts (Vocabulary.read?_eq_none_iff.mp known)⟩
    | some kind =>
      have named := Vocabulary.read?_eq_some_iff.mp known
      cases stack : int64? (trim r) with
      | none => exact .inr ⟨_, .stack parts named stack⟩
      | some n =>
        cases duration : int32? (trim s) with
        | none => exact .inr ⟨_, .duration parts named stack duration⟩
        | some m =>
          refine .inl ⟨⟨kind, String.ofList (trim q), clampStacks n, m⟩, _,
            .fields named ?_ stack (clampStacks_eq_iff.mp rfl) duration, ?_⟩
          · rw [String.toList_ofList]
            exact cell_trim (by decide) (parts.2.1 q (by simp))
          · have row := row_trim_fields ',' text
            rw [four] at row
            rwa [String.toList_ofList]
  · exact .inr ⟨_, .fieldCount count⟩

/-- What every spec that is read satisfies. -/
structure Writable (spec : BuffSpec) : Prop where
  parameter : Cell ',' spec.parameter.toList
  stacked : 1 ≤ spec.stack
  stack_le : spec.stack ≤ Count.greatest
  duration : Amount.InRange spec.duration

theorem Spells.writable {spec : BuffSpec} {row : List (List Char)} (h : Spells spec row) :
    Writable spec := by
  obtain ⟨_, cell, _, clamped, readDuration⟩ := h
  have bounds : 1 ≤ spec.stack ∧ spec.stack ≤ Count.greatest := by
    rw [Count.greatest] at clamped ⊢
    omega
  exact ⟨cell, bounds.1, bounds.2, (int32?_eq_some.mp readDuration).2⟩

/-- The numbers of a spec are spelt by their decimal digits. -/
theorem Writable.spells {spec : BuffSpec} (h : Writable spec) {name : List Char}
    (named : sameLetters (Vocabulary.word spec.kind).toList name = true) :
    Spells spec
      [name, spec.parameter.toList, decimal spec.stack, signedDecimal spec.duration] := by
  have stacked := h.stacked
  have stack_le := h.stack_le
  rw [Count.greatest] at stack_le
  have stack : signed? (decimal spec.stack) = some (spec.stack : Int) :=
    signed?_signedDecimal spec.stack
  refine .fields named h.parameter (int64?_eq_some.mpr ⟨stack, by omega, by omega⟩) ?_
    (int32?_eq_some.mpr ⟨signed?_signedDecimal _, h.duration⟩)
  rw [Count.greatest]
  omega

theorem writable_iff {spec : BuffSpec} : Writable spec ↔ ∃ fields, Spells spec fields :=
  ⟨fun writable => ⟨_, writable.spells (sameLetters_refl _)⟩, fun ⟨_, spells⟩ => spells.writable⟩

/-! ## The language of buffs -/

/-- The language of buffs: the texts that are specs and what is wrong with the others; and for a
spec that is read, the buff that it makes, or what is wrong with its parameter. -/
structure Language (text : String) : Prop where
  specs : Grammar read Spells Wrong Writable text.toList
  written : ∀ (spec : BuffSpec) name, Writable spec →
    sameLetters (Vocabulary.word spec.kind).toList name = true →
    Row ',' text.toList
      [name, spec.parameter.toList, decimal spec.stack, signedDecimal spec.duration] →
    read text.toList = .ok spec
  makes : ∀ spec, read text.toList = .ok spec → ∀ b, spec.toBuff = .ok b ↔ Describes spec b
  fails : ∀ spec, read text.toList = .ok spec →
    ((∃ fault, spec.toBuff = .error fault) ↔ ¬ Readable spec.parameter.toList spec.kind.form)
  unreadable : ∀ spec, read text.toList = .ok spec → ∀ fault,
    spec.toBuff = .error fault ↔ Unreadable spec.parameter.toList spec.kind.form fault
  unfailing : ∀ spec, read text.toList = .ok spec →
    spec.kind ∈ [.swift, .guard, .cursed, .gifted, .feared] → ∃ b, spec.toBuff = .ok b

theorem specs_of_text (text : List Char) : Grammar read Spells Wrong Writable text :=
  grammar_of_total read_of_spells read_of_wrong (read_total text) writable_iff

/-- **Buffs as text**: from any text to its spec, and from the spec to the buff. -/
theorem grammar (text : String) : Language text where
  specs := specs_of_text text.toList
  written spec name writable named row := read_of_spells (writable.spells named) row
  makes := by
    intro spec read b
    obtain ⟨_, spells, _⟩ := ((specs_of_text text.toList).reads spec).mp read
    exact toBuff_eq_ok_iff spells.writable.stacked
  fails spec _ := by
    simp only [toBuff_eq_error_iff]
    exact exists_unreadable_iff
  unreadable spec _ fault := toBuff_eq_error_iff
  unfailing := by
    intro spec _ listed
    have silent : spec.kind.form = .ignored ∨ spec.kind.form = .direction := by
      revert listed
      cases spec.kind <;> decide
    cases made : spec.toBuff with
    | ok b => exact ⟨b, rfl⟩
    | error fault =>
      have wrong := toBuff_eq_error_iff.mp made
      obtain form | form := silent <;> rw [form] at wrong <;> cases wrong

example : read " fragile ,\t25 , 0, -2".toList = .ok ⟨.fragile, "25", 1, -2⟩ := by decide +kernel

end BuffSpec
end CardBattle
