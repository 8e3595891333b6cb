import CardBattle.Proofs.BuffTexts
import CardBattle.Proofs.SkillValues

/-!
# CardBattle.Proofs.EffectValues

The values of effects as text. The kind of a slot decides on the fields of its value, and the
fields on the effect. A pair is cut at its first comma only, so that whatever follows belongs to
its second part; a buff and a repetition are cut at every comma.

* `Effect.Spells`: the fields of an effect in a slot of a kind.
* `Effect.Written`, `Effect.Wrong`: the texts that are values, and what is wrong with the others.
* `Effect.Suits`: the effects that a kind can hold.
* `Effect.Opposed`: one text for raising a gauge and for lowering it.
* `Effect.values_of_kind`: what is read of any text, and as what.
-/

namespace CardBattle

open Text Numeral

/-! ## Kinds -/

namespace EffectKind

/-- Who the buff of a kind lands on. -/
def scope? : EffectKind → Option BuffScope
  | .buffSelf => some .caster
  | .buffTarget => some .target
  | .buffArea => some .opponents
  | _ => Option.none

def delay? : EffectKind → Option DelayMode
  | .delaySingle => some .single
  | .delayArea => some .area
  | _ => Option.none

def up : Gauge → EffectKind
  | .angel => .angelUp
  | .demon => .demonUp

def down : Gauge → EffectKind
  | .angel => .angelDown
  | .demon => .demonDown

/-- Every kind is empty or has one of six grammars. -/
theorem forms (kind : EffectKind) :
    kind = .none ∨ (∃ make, kind.number? = some make) ∨ (∃ make, kind.integer? = some make) ∨
      (∃ scope, kind.scope? = some scope) ∨ (∃ mode, kind.delay? = some mode) ∨
      kind = .castMore ∨ kind = .spendRepeat := by
  cases kind <;> simp [number?, integer?, scope?, delay?]

end EffectKind

namespace Effect

variable {kind : EffectKind} {value : List Char} {e : Effect}

theorem readTrimmed_of_scope? {scope : BuffScope} (h : kind.scope? = some scope) :
    readTrimmed kind value = (buff value scope).map some := by
  cases kind <;> cases h <;> rfl

theorem readTrimmed_of_delay? {mode : DelayMode} (h : kind.delay? = some mode) :
    readTrimmed kind value = (delayOf kind value mode).map some := by
  cases kind <;> cases h <;> rfl

/-! ## What is written -/

/-- The fields of an effect in a slot of a kind: names in any case, and numerals. Integers that
count stop at 0. -/
inductive Spells : EffectKind → List (List Char) → Effect → Prop
  | number {kind : EffectKind} {make : Single → Effect} {numeral : List Char} {x : Single}
      (form : kind.number? = some make) (read : Binary.read? numeral = some x) :
      Spells kind [numeral] (make x)
  | integer {kind : EffectKind} {make : Int → Effect} {numeral : List Char} {n : Int}
      (form : kind.integer? = some make) (read : int32? numeral = some n)
      (fits : kind.isDown = true → n ≠ Amount.least) :
      Spells kind [numeral] (make n)
  | buff {kind : EffectKind} {scope : BuffScope} {fields : List (List Char)} {spec : BuffSpec}
      (form : kind.scope? = some scope) (spells : BuffSpec.Spells spec fields) :
      Spells kind fields (.applyBuff scope spec)
  | castMore {side : Side} {name numeral : List Char} {n : Int}
      (named : sameLetters (Vocabulary.word side).toList name = true)
      (read : int32? numeral = some n) :
      Spells .castMore [name, numeral] (.castMore side n.toNat)
  | delay {kind : EffectKind} {mode : DelayMode} {damage turns : List Char} {x : Single} {n : Int}
      (form : kind.delay? = some mode) (readDamage : Binary.read? damage = some x)
      (readTurns : int32? turns = some n) :
      Spells kind [damage, turns] (.delay mode x n)
  | spendRepeat {meter : Meter} {name cost budget : List Char} {c b : Int}
      (named : sameLetters (Vocabulary.word meter).toList name = true)
      (readCost : int32? cost = some c) (readBudget : int32? budget = some b) :
      Spells .spendRepeat [name, cost, budget] (.spendRepeat meter c b)

/-- The value of an effect as it is written, with blanks around each field. -/
def Written (text : List Char) (kind : EffectKind) (e : Effect) : Prop :=
  ∃ fields, Spells kind fields e ∧ Row ',' text fields

theorem Spells.ne_nil {fields : List (List Char)} (h : Spells kind fields e) : fields ≠ [] := by
  cases h with
  | buff _ spells => exact spells.ne_nil
  | _ => exact List.cons_ne_nil _ _

theorem Spells.cells {fields : List (List Char)} (h : Spells kind fields e) :
    ∀ f ∈ fields, Cell ',' f := by
  have integer : ∀ {numeral n}, int32? numeral = some n → Cell ',' numeral :=
    fun read => (plain_of_int32? read).cell (by decide)
  have number : ∀ {numeral} {x : Single}, Binary.read? numeral = some x → Cell ',' numeral :=
    fun read => (Binary.plain_of_read? read).1.cell (by decide)
  cases h with
  | number _ read => exact List.forall_mem_singleton.mpr (number read)
  | integer _ read => exact List.forall_mem_singleton.mpr (integer read)
  | buff _ spells => exact spells.cells
  | castMore named read =>
    have name : Cell ',' _ := (Vocabulary.plain_of_names named).1.cell (by decide)
    exact List.forall_mem_cons.mpr ⟨name, List.forall_mem_singleton.mpr (integer read)⟩
  | delay _ readDamage readTurns =>
    exact List.forall_mem_cons.mpr
      ⟨number readDamage, List.forall_mem_singleton.mpr (integer readTurns)⟩
  | spendRepeat named readCost readBudget =>
    have name : Cell ',' _ := (Vocabulary.plain_of_names named).1.cell (by decide)
    exact List.forall_mem_cons.mpr ⟨name, List.forall_mem_cons.mpr
      ⟨integer readCost, List.forall_mem_singleton.mpr (integer readBudget)⟩⟩

theorem written_trim_iff {text : List Char} : Written (trim text) kind e ↔ Written text kind e := by
  refine exists_congr fun fields => and_congr_right fun spells => ?_
  exact row_trim_iff (by decide) spells.ne_nil spells.cells

/-! ## What is wrong -/

/-- What is wrong with a trimmed value that is no effect of a kind. -/
inductive Wrong (value : List Char) : EffectKind → EffectFault → Prop
  | number {kind : EffectKind} {make : Single → Effect} (form : kind.number? = some make)
      (none : ∀ x : Single, ¬ IsNumber value x) :
      Wrong value kind (.invalidNumber kind (String.ofList value))
  | integer {kind : EffectKind} {make : Int → Effect} (form : kind.integer? = some make)
      (none : ∀ n, IsInteger value n → kind.isDown = true ∧ n = Amount.least) :
      Wrong value kind (.invalidNumber kind (String.ofList value))
  | buff {kind : EffectKind} {scope : BuffScope} {fault : BuffFault}
      (form : kind.scope? = some scope) (wrong : BuffSpec.Wrong value fault) :
      Wrong value kind (.buff fault)
  | single (plain : ',' ∉ value) :
      Wrong value .castMore (.invalidFormat .castMore (String.ofList value) "<Left|Right>,<n>")
  | side {name rest : List Char} (first : ',' ∉ name) (parts : value = name ++ ',' :: rest)
      (unknown : ∀ s : Side, sameLetters (Vocabulary.word s).toList (trim name) = false) :
      Wrong value .castMore (.unknownSide (String.ofList (trim name)))
  | distance {name rest : List Char} {s : Side} (first : ',' ∉ name)
      (parts : value = name ++ ',' :: rest)
      (named : sameLetters (Vocabulary.word s).toList (trim name) = true)
      (none : ∀ n, ¬ IsInteger rest n) :
      Wrong value .castMore (.invalidNumber .castMore (String.ofList value))
  | undelayed {kind : EffectKind} {mode : DelayMode} (form : kind.delay? = some mode)
      (plain : ',' ∉ value) :
      Wrong value kind (.invalidFormat kind (String.ofList value) "<damage>,<delayTurns>")
  | delay {kind : EffectKind} {mode : DelayMode} {damage rest : List Char}
      (form : kind.delay? = some mode) (first : ',' ∉ damage)
      (parts : value = damage ++ ',' :: rest)
      (none : (∀ x : Single, ¬ IsNumber damage x) ∨ ∀ n, ¬ IsInteger rest n) :
      Wrong value kind (.invalidNumber kind (String.ofList value))
  | fieldCount (count : value.count ',' ≠ 2) :
      Wrong value .spendRepeat
        (.invalidFormat .spendRepeat (String.ofList value) "<meter>,<costPerRepeat>,<maxTotal>")
  | meter {p q r : List Char} (parts : Parts ',' value [p, q, r])
      (unknown : ∀ m : Meter, sameLetters (Vocabulary.word m).toList (trim p) = false) :
      Wrong value .spendRepeat (.unknownMeter (String.ofList (trim p)))
  | payment {p q r : List Char} {m : Meter} (parts : Parts ',' value [p, q, r])
      (named : sameLetters (Vocabulary.word m).toList (trim p) = true)
      (none : (∀ n, ¬ IsInteger q n) ∨ ∀ n, ¬ IsInteger r n) :
      Wrong value .spendRepeat (.invalidNumber .spendRepeat (String.ofList value))

/-! ## Parts -/

section

variable {part : List Char}

theorem number_of_isNumber {x : Single} (h : IsNumber part x) : number kind value part = .ok x := by
  rw [number, isNumber_iff.mp h]

theorem number_of_none (h : ∀ x : Single, ¬ IsNumber part x) :
    number kind value part = .error (.invalidNumber kind (String.ofList value)) := by
  rw [number, isNumber_none_iff.mp h]

theorem integer_of_isInteger {n : Int} (h : IsInteger part n) :
    integer kind value part = .ok n := by
  rw [integer, isInteger_iff.mp h]

theorem integer_of_none (h : ∀ n, ¬ IsInteger part n) :
    integer kind value part = .error (.invalidNumber kind (String.ofList value)) := by
  rw [integer, isInteger_none_iff.mp h]

end

/-! ## What is read -/

theorem readTrimmed_of_written (h : Written value kind e) :
    readTrimmed kind value = .ok (some e) := by
  obtain ⟨fields, spells, row⟩ := h
  cases spells with
  | number form read =>
    have number : IsNumber value _ := ⟨_, row_singleton.mp row, read⟩
    rw [readTrimmed_of_number? form, number_of_isNumber number]
    rfl
  | integer form read fits =>
    have integer : IsInteger value _ := ⟨_, row_singleton.mp row, read⟩
    rw [readTrimmed_of_integer? form, isInteger_iff.mp integer]
    exact if_neg fun wrong => fits wrong.1 wrong.2
  | buff form spells =>
    rw [readTrimmed_of_scope? form, buff, BuffSpec.read_of_spells spells row]
    rfl
  | castMore named read =>
    have name : Cell ',' _ := (Vocabulary.plain_of_names named).1.cell (by decide)
    obtain ⟨a, b, found, rfl, rfl⟩ :=
      exists_cut_of_row (by decide) name (plain_of_int32? read).tight row
    rw [← Vocabulary.read?_eq_some_iff] at named
    simp only [readTrimmed, castMoreOf, pair, found, named, count,
      integer_of_isInteger (isInteger_iff.mpr read)]
    rfl
  | delay form readDamage readTurns =>
    have damage : Cell ',' _ := (Binary.plain_of_read? readDamage).1.cell (by decide)
    obtain ⟨a, b, found, rfl, rfl⟩ :=
      exists_cut_of_row (by decide) damage (plain_of_int32? readTurns).tight row
    simp only [readTrimmed_of_delay? form, delayOf, pair, found,
      number_of_isNumber (isNumber_iff.mpr readDamage),
      integer_of_isInteger (isInteger_iff.mpr readTurns)]
    rfl
  | spendRepeat named readCost readBudget =>
    have cells := (Spells.spendRepeat named readCost readBudget).cells
    have found := (row_iff (by decide) (List.cons_ne_nil _ _) cells).mp row
    have cost : IsInteger _ _ := ⟨_, padded_self _, readCost⟩
    have budget : IsInteger _ _ := ⟨_, padded_self _, readBudget⟩
    rw [← Vocabulary.read?_eq_some_iff] at named
    simp only [readTrimmed, spendRepeatOf, found, named, integer_of_isInteger cost,
      integer_of_isInteger budget]
    rfl

theorem readTrimmed_of_wrong {fault : EffectFault} (h : Wrong value kind fault) :
    readTrimmed kind value = .error fault := by
  cases h with
  | number form none =>
    rw [readTrimmed_of_number? form, number_of_none none]
    rfl
  | integer form none =>
    rw [readTrimmed_of_integer? form]
    cases read : int32? (trim value) with
    | none => rfl
    | some n => exact if_pos (none n (isInteger_iff.mpr read))
  | buff form wrong =>
    rw [readTrimmed_of_scope? form, buff, BuffSpec.read_of_wrong wrong]
    rfl
  | single plain =>
    simp only [readTrimmed, castMoreOf, pair, cut_eq_none_iff.mpr plain]
    rfl
  | side first parts unknown =>
    rw [← Vocabulary.read?_eq_none_iff] at unknown
    simp only [readTrimmed, castMoreOf, pair, cut_eq_some_iff.mpr ⟨first, parts⟩, unknown]
    rfl
  | distance first parts named none =>
    rw [← Vocabulary.read?_eq_some_iff] at named
    simp only [readTrimmed, castMoreOf, pair, cut_eq_some_iff.mpr ⟨first, parts⟩, named, count,
      integer_of_none none]
    rfl
  | undelayed form plain =>
    simp only [readTrimmed_of_delay? form, delayOf, pair, cut_eq_none_iff.mpr plain]
    rfl
  | @delay _ _ damage rest form first parts none =>
    simp only [readTrimmed_of_delay? form, delayOf, pair, cut_eq_some_iff.mpr ⟨first, parts⟩]
    obtain ⟨x, number⟩ | noNumber := number_total damage
    · obtain none | none := none
      · exact absurd number (none x)
      · simp only [number_of_isNumber number, integer_of_none none]
        rfl
    · simp only [number_of_none noNumber]
      rfl
  | fieldCount count =>
    simp only [readTrimmed, spendRepeatOf]
    split
    · rename_i three
      exact absurd (Nat.succ.inj (count_of_map_trim_fields three)) count
    · rfl
  | meter parts unknown =>
    rw [← Vocabulary.read?_eq_none_iff] at unknown
    simp only [readTrimmed, spendRepeatOf, parts.fields_eq, List.map_cons, List.map_nil, unknown]
    rfl
  | @payment p q r m parts named none =>
    rw [← Vocabulary.read?_eq_some_iff] at named
    simp only [readTrimmed, spendRepeatOf, parts.fields_eq, List.map_cons, List.map_nil, named]
    obtain ⟨c, cost⟩ | noCost := integer_total q
    · obtain none | none := none
      · exact absurd cost (none c)
      · simp only [integer_of_isInteger (isInteger_trim_iff.mpr cost),
          integer_of_none fun n wrong => none n (isInteger_trim_iff.mp wrong)]
        rfl
    · simp only [integer_of_none fun n wrong => noCost n (isInteger_trim_iff.mp wrong)]
      rfl

/-- What a kind reads from a text: nothing, if it is empty, or an effect that was written. -/
def Says (text : List Char) (kind : EffectKind) : Option Effect → Prop
  | none => kind = .none
  | some e => Written text kind e

theorem readTrimmed_of_says {effect : Option Effect} (h : Says value kind effect) :
    readTrimmed kind value = .ok effect := by
  cases effect with
  | none =>
    obtain rfl : kind = .none := h
    rfl
  | some e => exact readTrimmed_of_written h

/-- Either the value says something, or something is wrong with it. -/
def Judged (value : List Char) (kind : EffectKind) : Prop :=
  (∃ effect, Says value kind effect) ∨ ∃ fault, Wrong value kind fault

theorem judged_of_number? {make : Single → Effect} (form : kind.number? = some make) :
    Judged value kind := by
  obtain ⟨x, numeral, padded, read⟩ | none := number_total value
  · exact .inl ⟨some (make x), [numeral], .number form read, row_singleton.mpr padded⟩
  · exact .inr ⟨_, .number form none⟩

theorem judged_of_integer? {make : Int → Effect} (form : kind.integer? = some make) :
    Judged value kind := by
  obtain ⟨n, integer⟩ | none := integer_total value
  · by_cases least : kind.isDown = true ∧ n = Amount.least
    · -- The least amount has no opposite, and a text is one integer only.
      refine .inr ⟨_, .integer form fun m other => ?_⟩
      rwa [other.unique integer]
    · obtain ⟨numeral, padded, read⟩ := integer
      exact .inl ⟨some (make n), [numeral],
        .integer form read fun down same => least ⟨down, same⟩, row_singleton.mpr padded⟩
  · exact .inr ⟨_, .integer form fun n integer => absurd integer (none n)⟩

theorem judged_of_scope? {scope : BuffScope} (form : kind.scope? = some scope) :
    Judged value kind := by
  obtain ⟨spec, row, spells, written⟩ | ⟨fault, wrong⟩ := BuffSpec.read_total value
  · exact .inl ⟨some (.applyBuff scope spec), row, .buff form spells, written⟩
  · exact .inr ⟨_, .buff form wrong⟩

theorem judged_of_delay? {mode : DelayMode} (form : kind.delay? = some mode) :
    Judged value kind := by
  cases found : cut ',' value with
  | none => exact .inr ⟨_, .undelayed form (cut_eq_none_iff.mp found)⟩
  | some parts =>
    obtain ⟨damage, turns⟩ := parts
    obtain ⟨first, whole⟩ := cut_eq_some_iff.mp found
    obtain ⟨x, number⟩ | none := number_total damage
    · obtain ⟨n, integer⟩ | none := integer_total turns
      · exact .inl ⟨some (.delay mode x n), _, .delay form (isNumber_iff.mp number)
          (isInteger_iff.mp integer), row_of_cut found⟩
      · exact .inr ⟨_, .delay form first whole (.inr none)⟩
    · exact .inr ⟨_, .delay form first whole (.inl none)⟩

theorem judged_castMore (value : List Char) : Judged value .castMore := by
  cases found : cut ',' value with
  | none => exact .inr ⟨_, .single (cut_eq_none_iff.mp found)⟩
  | some parts =>
    obtain ⟨name, rest⟩ := parts
    obtain ⟨first, whole⟩ := cut_eq_some_iff.mp found
    cases known : (Vocabulary.read? (trim name) : Option Side) with
    | none => exact .inr ⟨_, .side first whole (Vocabulary.read?_eq_none_iff.mp known)⟩
    | some side =>
      have named := Vocabulary.read?_eq_some_iff.mp known
      obtain ⟨n, integer⟩ | none := integer_total rest
      · exact .inl ⟨some (.castMore side n.toNat), _,
          .castMore named (isInteger_iff.mp integer), row_of_cut found⟩
      · exact .inr ⟨_, .distance first whole named none⟩

theorem judged_spendRepeat (value : List Char) : Judged value .spendRepeat := by
  by_cases count : value.count ',' = 2
  · have length := length_fields ',' value
    rw [count] at length
    obtain ⟨p, q, r, three⟩ := List.length_eq_three.mp length
    have parts := fields_eq_iff.mp three
    cases known : (Vocabulary.read? (trim p) : Option Meter) with
    | none => exact .inr ⟨_, .meter parts (Vocabulary.read?_eq_none_iff.mp known)⟩
    | some meter =>
      have named := Vocabulary.read?_eq_some_iff.mp known
      obtain ⟨c, cost⟩ | none := integer_total q
      · obtain ⟨b, budget⟩ | none := integer_total r
        · have row := row_trim_fields ',' value
          rw [three] at row
          exact .inl ⟨some (.spendRepeat meter c b), _, .spendRepeat named
            (isInteger_iff.mp cost) (isInteger_iff.mp budget), row⟩
        · exact .inr ⟨_, .payment parts named (.inr none)⟩
      · exact .inr ⟨_, .payment parts named (.inl none)⟩
  · exact .inr ⟨_, .fieldCount count⟩

theorem judged (kind : EffectKind) (value : List Char) : Judged value kind := by
  obtain rfl | ⟨make, form⟩ | ⟨make, form⟩ | ⟨scope, form⟩ | ⟨mode, form⟩ | rfl | rfl := kind.forms
  · exact .inl ⟨none, rfl⟩
  · exact judged_of_number? form
  · exact judged_of_integer? form
  · exact judged_of_scope? form
  · exact judged_of_delay? form
  · exact judged_castMore value
  · exact judged_spendRepeat value

theorem readTrimmed_iff (kind : EffectKind) (value : List Char) :
    (∀ effect, readTrimmed kind value = .ok effect ↔ Says value kind effect) ∧
      ∀ fault, readTrimmed kind value = .error fault ↔ Wrong value kind fault :=
  answer_iff (fun _ => readTrimmed_of_says) (fun _ => readTrimmed_of_wrong) (judged kind value)

/-! ## Effects that can be written -/

/-- The effects that a kind can hold: those of its form, with numbers in their ranges. -/
inductive Suits : EffectKind → Effect → Prop
  | number {kind : EffectKind} {make : Single → Effect} {x : Single}
      (form : kind.number? = some make) (point : x.IsPoint) : Suits kind (make x)
  | integer {kind : EffectKind} {make : Int → Effect} {n : Int}
      (form : kind.integer? = some make) (range : Amount.InRange n)
      (fits : kind.isDown = true → n ≠ Amount.least) : Suits kind (make n)
  | buff {kind : EffectKind} {scope : BuffScope} {spec : BuffSpec}
      (form : kind.scope? = some scope) (writable : spec.Writable) :
      Suits kind (.applyBuff scope spec)
  | castMore {side : Side} {n : Nat} (range : Amount.InRange n) : Suits .castMore (.castMore side n)
  | delay {kind : EffectKind} {mode : DelayMode} {x : Single} {n : Int}
      (form : kind.delay? = some mode) (point : x.IsPoint) (range : Amount.InRange n) :
      Suits kind (.delay mode x n)
  | spendRepeat {meter : Meter} {c b : Int} (cost : Amount.InRange c) (budget : Amount.InRange b) :
      Suits .spendRepeat (.spendRepeat meter c b)

/-- The effects that a kind can hold are those that have a text. -/
theorem suits_iff : Suits kind e ↔ ∃ fields, Spells kind fields e := by
  have integer : ∀ {n : Int}, Amount.InRange n → int32? (signedDecimal n) = some n :=
    fun range => int32?_eq_some.mpr ⟨signed?_signedDecimal _, range⟩
  have number : ∀ {x : Single}, x.IsPoint → Binary.read? x.toText = some x :=
    fun point => Binary.read?_toText Format.single_isProper point
  have range : ∀ {numeral n}, int32? numeral = some n → Amount.InRange n :=
    fun read => (int32?_eq_some.mp read).2
  constructor
  · intro suits
    cases suits with
    | number form point => exact ⟨_, .number form (number point)⟩
    | integer form range fits => exact ⟨_, .integer form (integer range) fits⟩
    | @buff _ _ spec form writable =>
      exact ⟨_, .buff form (writable.spells (sameLetters_refl _))⟩
    | castMore range => exact ⟨_, .castMore (sameLetters_refl _) (integer range)⟩
    | delay form point range => exact ⟨_, .delay form (number point) (integer range)⟩
    | spendRepeat cost budget =>
      exact ⟨_, .spendRepeat (sameLetters_refl _) (integer cost) (integer budget)⟩
  · rintro ⟨fields, spells⟩
    cases spells with
    | number form read => exact .number form (Binary.isPoint_of_read? Format.single_isProper read)
    | integer form read fits => exact .integer form (range read) fits
    | buff form spells => exact .buff form spells.writable
    | castMore named read =>
      have inRange := range read
      rw [Amount.InRange, Amount.least, Amount.greatest] at inRange
      refine .castMore ⟨?_, ?_⟩
      · rw [Amount.least]
        omega
      · rw [Amount.greatest]
        omega
    | delay form readDamage readTurns =>
      exact .delay form (Binary.isPoint_of_read? Format.single_isProper readDamage)
        (range readTurns)
    | spendRepeat named readCost readBudget => exact .spendRepeat (range readCost) (range readBudget)

/-! ## Gauges -/

/-- One text for raising a gauge and for lowering it: opposite amounts, or the least amount, which
has no opposite, or no integer at all. -/
inductive Opposed (gauge : Gauge) (text : String) : Prop
  | opposite (n : Int) (integer : IsInteger text.toList n) (other : n ≠ Amount.least)
      (up : read (.up gauge) text = .ok (some (.shiftGauge gauge n)))
      (down : read (.down gauge) text = .ok (some (.shiftGauge gauge (-n))))
  | least (integer : IsInteger text.toList Amount.least)
      (up : read (.up gauge) text = .ok (some (.shiftGauge gauge Amount.least)))
      (down : read (.down gauge) text =
        .error (.invalidNumber (.down gauge) (String.ofList (trim text.toList))))
  | neither (none : ∀ n, ¬ IsInteger text.toList n)
      (up : read (.up gauge) text =
        .error (.invalidNumber (.up gauge) (String.ofList (trim text.toList))))
      (down : read (.down gauge) text =
        .error (.invalidNumber (.down gauge) (String.ofList (trim text.toList))))

theorem opposed (gauge : Gauge) (text : String) : Opposed gauge text := by
  have up : (EffectKind.up gauge).integer? = some (.shiftGauge gauge) := by cases gauge <;> rfl
  have down : (EffectKind.down gauge).integer? = some fun n => .shiftGauge gauge (-n) := by
    cases gauge <;> rfl
  have isDown : (EffectKind.up gauge).isDown = false ∧ (EffectKind.down gauge).isDown = true := by
    cases gauge <;> decide
  have readUp : readTrimmed (.up gauge) (trim text.toList) = _ := readTrimmed_of_integer? up
  have readDown : readTrimmed (.down gauge) (trim text.toList) = _ := readTrimmed_of_integer? down
  rw [trim_trim, isDown.1] at readUp
  rw [trim_trim, isDown.2] at readDown
  obtain ⟨n, integer⟩ | none := integer_total text.toList
  · rw [isInteger_iff.mp integer] at readUp readDown
    have raised := readUp.trans (if_neg fun wrong => absurd wrong.1 (by decide))
    by_cases least : n = Amount.least
    · subst least
      exact .least integer raised (readDown.trans (if_pos ⟨rfl, rfl⟩))
    · exact .opposite n integer least raised (readDown.trans (if_neg fun wrong => least wrong.2))
  · rw [isInteger_none_iff.mp none] at readUp readDown
    exact .neither none readUp readDown

/-! ## The values of a kind -/

/-- The values of a kind: which texts are read, and as what; what is wrong with the others; which
effects have a text; and what one text means for raising and for lowering a gauge. -/
structure Values (kind : EffectKind) (text : String) : Prop where
  reads : ∀ e, read kind text = .ok (some e) ↔ Written text.toList kind e
  empty : read kind text = .ok none ↔ kind = .none
  faults : ∀ fault, read kind text = .error fault ↔ Wrong (trim text.toList) kind fault
  suits : ∀ e, Suits kind e ↔ ∃ fields, Spells kind fields e
  opposed : ∀ gauge, Opposed gauge text

/-- **Values of effects**: what a slot of any kind makes of any text. -/
theorem values_of_kind (kind : EffectKind) (text : String) : Values kind text where
  reads e := ((readTrimmed_iff kind (trim text.toList)).1 (some e)).trans written_trim_iff
  empty := (readTrimmed_iff kind (trim text.toList)).1 none
  faults := (readTrimmed_iff kind (trim text.toList)).2
  suits _ := suits_iff
  opposed gauge := opposed gauge text

example : read .castMore " LEFT ,\t-3" = .ok (some (.castMore .left 0)) := by decide +kernel

/-- The second comma belongs to what should be a number. -/
example : read .castMore "left,1,2" = .error (.invalidNumber .castMore "left,1,2") := by
  decide +kernel

end Effect
end CardBattle
