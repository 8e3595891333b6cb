import CardBattle.Proofs.Names
import CardBattle.Proofs.Rounding

/-!
# CardBattle.Proofs.Requirements

The language of requirements: which texts are requirements, what they say, and what is wrong with
the others.

* `Requirement.Written`: a subject, a comparison and a number, with blanks around each of them.
* `Requirement.Splits`: the cut at the first operator of a text, whose longest token is taken. It
  finds what was written (`splits_of_written`), because names and numbers are plain.
* `Comparison.Relates`: what a comparison says about an integer and a number.
* `Requirement.language`: what is read, the three faults, and when a requirement is not met.
-/

namespace CardBattle

open Text

/-! ## The cut at the comparison -/

/-- A comparison as it is written. -/
def Comparison.token : Comparison → List Char
  | .ge => ['>', '=']
  | .le => ['<', '=']
  | .gt => ['>']
  | .lt => ['<']
  | .eq => ['=', '=']
  | .ne => ['!', '=']

theorem Comparison.exists_token (c : Comparison) :
    ∃ x cs, c.token = x :: cs ∧ isOperator x = true := by
  cases c <;> exact ⟨_, _, rfl, rfl⟩

theorem Comparison.length_token_le (c : Comparison) : c.token.length ≤ 2 := by
  cases c <;> decide

/-- A single character is the longest token unless `=` follows. -/
theorem Comparison.length_token_le_one {c : Comparison} {x : Char} {cs : List Char}
    (front : c.token <+: x :: cs) (single : ∀ ds, cs = '=' :: ds → False) : c.token.length ≤ 1 := by
  have follows : ∀ {y : Char}, ¬ [y, '='] <+: x :: cs := by
    rintro y ⟨ds, whole⟩
    rw [List.cons_append, List.cons.injEq] at whole
    exact single ds whole.2.symm
  cases c with
  | gt | lt => decide
  | ge | le | eq | ne => exact absurd front follows

theorem Comparison.read?_eq_some_iff {cs after : List Char} {c : Comparison} :
    read? cs = some (c, after) ↔
      cs = c.token ++ after ∧
        ∀ d : Comparison, d.token <+: cs → d.token.length ≤ c.token.length := by
  constructor
  · intro h
    unfold read? at h
    split at h
    · cases h
      exact ⟨rfl, fun d _ => length_token_le d⟩
    · cases h
      exact ⟨rfl, fun d _ => length_token_le d⟩
    · cases h
      exact ⟨rfl, fun d _ => length_token_le d⟩
    · cases h
      exact ⟨rfl, fun d _ => length_token_le d⟩
    · rename_i single
      cases h
      exact ⟨rfl, fun d front => length_token_le_one front single⟩
    · rename_i single
      cases h
      exact ⟨rfl, fun d front => length_token_le_one front single⟩
    · cases h
  · rintro ⟨rfl, longest⟩
    have single : c.token.length = 1 → ∀ ds, after = '=' :: ds → False := by
      intro one ds follows
      subst follows
      cases c with
      | gt =>
        have two := longest .ge ⟨ds, rfl⟩
        simp [token] at two
      | lt =>
        have two := longest .le ⟨ds, rfl⟩
        simp [token] at two
      | ge | le | eq | ne => simp [token] at one
    cases c with
    | gt =>
      simp only [token, List.cons_append, List.nil_append]
      unfold read?
      split <;> simp_all [token]
    | lt =>
      simp only [token, List.cons_append, List.nil_append]
      unfold read?
      split <;> simp_all [token]
    | ge | le | eq | ne => rfl

namespace Requirement

/-- The cut of a text at its first operator, where the longest token is taken. -/
structure Splits (text before : List Char) (c : Comparison) (after : List Char) : Prop where
  parts : text = before ++ (c.token ++ after)
  first : ∀ x ∈ before, Comparison.isOperator x = false
  longest : ∀ d : Comparison, d.token <+: c.token ++ after → d.token.length ≤ c.token.length

theorem splits_iff {text before after : List Char} {c : Comparison} :
    Splits text before c after ↔
      (text.span fun c => !Comparison.isOperator c).1 = before ∧
        Comparison.read? (text.span fun c => !Comparison.isOperator c).2 = some (c, after) := by
  rw [List.span_eq_takeWhile_dropWhile, Comparison.read?_eq_some_iff]
  constructor
  · rintro ⟨rfl, first, longest⟩
    obtain ⟨x, cs, token, operator⟩ := c.exists_token
    have stop : (!Comparison.isOperator x) = false := by rw [operator]; rfl
    have silent : ∀ y ∈ before, (!Comparison.isOperator y) = true := by
      intro y hy
      rw [first y hy]
      rfl
    have taken : (before ++ (c.token ++ after)).takeWhile (fun c => !Comparison.isOperator c) =
        before := by
      rw [List.takeWhile_append_of_pos silent, token, List.cons_append,
        List.takeWhile_cons_of_neg (by rw [stop]; decide), List.append_nil]
    have dropped : (before ++ (c.token ++ after)).dropWhile (fun c => !Comparison.isOperator c) =
        c.token ++ after := by
      rw [List.dropWhile_append_of_pos silent, token, List.cons_append,
        List.dropWhile_cons_of_neg (by rw [stop]; decide)]
    refine ⟨taken, dropped, ?_⟩
    rw [dropped]
    exact longest
  · rintro ⟨rfl, dropped, longest⟩
    refine ⟨?_, ?_, dropped ▸ longest⟩
    · rw [← dropped]
      exact List.takeWhile_append_dropWhile.symm
    · intro y hy
      have silent := List.mem_takeWhile_imp hy
      rwa [Bool.not_eq_true'] at silent

/-! ## What is read -/

/-- A requirement as it is written: a name in any case, a comparison and a number, with blanks
around each of them. -/
def Written (text : List Char) (r : Requirement) : Prop :=
  ∃ front name gap gap' number back : List Char,
    Blank front ∧ Blank gap ∧ Blank gap' ∧ Blank back ∧
    sameLetters (Vocabulary.word r.subject).toList name = true ∧
    Binary.read? number = some r.threshold ∧
    text = front ++ (name ++ gap ++ (r.comparison.token ++ (gap' ++ number)) ++ back)

/-- What was written is cut where it should be. A number has no operators, so the token that
was written is the longest one. -/
theorem splits_of_written {text : List Char} {r : Requirement} (h : Written text r) :
    ∃ before after, Splits (trim text) before r.comparison after ∧
      Vocabulary.read? (trim before) = some r.subject ∧
      Binary.read? (trim after) = some r.threshold := by
  obtain ⟨front, name, gap, gap', number, back,
    blank, blank₁, blank₂, blank', named, read, rfl⟩ := h
  obtain ⟨plain, some⟩ := Vocabulary.plain_of_names named
  obtain ⟨plain', some'⟩ := Binary.plain_of_read? read
  have trimmed : trim (front ++
      (name ++ gap ++ (r.comparison.token ++ (gap' ++ number)) ++ back)) =
        name ++ gap ++ (r.comparison.token ++ (gap' ++ number)) := by
    refine trim_between blank blank' ?_ ?_
    · intro c hc
      rw [List.append_assoc, List.head?_append_of_ne_nil _ some] at hc
      exact plain.visible c (List.mem_of_mem_head? hc)
    · intro c hc
      rw [← List.append_assoc, ← List.append_assoc, List.getLast?_append_of_ne_nil _ some'] at hc
      exact plain'.visible c (List.mem_of_mem_getLast? hc)
  have none : Blank [] := List.forall_mem_nil _
  have subject : trim (name ++ gap) = name := plain.trim_between none blank₁
  have threshold : trim (gap' ++ number) = number := by
    have found := plain'.trim_between blank₂ none
    rwa [List.append_nil] at found
  have silent : ∀ x ∈ gap' ++ number, Comparison.isOperator x = false :=
    List.forall_mem_append.mpr ⟨blank₂.silent, plain'.silent⟩
  refine ⟨name ++ gap, gap' ++ number, ⟨trimmed, ?_, ?_⟩, ?_, ?_⟩
  · exact List.forall_mem_append.mpr ⟨plain.silent, blank₁.silent⟩
  · intro d front
    by_cases two : r.comparison.token.length = 2
    · rw [two]
      exact d.length_token_le
    · obtain ⟨x, cs, token, _⟩ := r.comparison.exists_token
      have short := r.comparison.length_token_le
      rw [token, List.length_cons] at two short
      have single : cs = [] := List.length_eq_zero_iff.mp (by omega)
      subst single
      rw [token] at front ⊢
      refine Comparison.length_token_le_one front ?_
      intro ds follows
      have listed : '=' ∈ gap' ++ number := by
        rw [show gap' ++ number = '=' :: ds from follows]
        exact List.mem_cons_self
      cases silent '=' listed
  · rw [subject]
    exact Vocabulary.read?_eq_some_iff.mpr named
  · rw [threshold]
    exact read

theorem written_of_splits {text before after : List Char} {r : Requirement}
    (cut : Splits (trim text) before r.comparison after)
    (subject : Vocabulary.read? (trim before) = some r.subject)
    (threshold : Binary.read? (trim after) = some r.threshold) : Written text r := by
  obtain ⟨front, back, blank, blank', whole⟩ := exists_trim text
  obtain ⟨front₁, gap, blank₁, blank₂, left⟩ := exists_trim before
  obtain ⟨gap', back', blank₃, blank₄, right⟩ := exists_trim after
  refine ⟨front ++ front₁, trim before, gap, gap', trim after, back' ++ back,
    blank_append.mpr ⟨blank, blank₁⟩, blank₂, blank₃, blank_append.mpr ⟨blank₄, blank'⟩,
    Vocabulary.read?_eq_some_iff.mp subject, threshold, ?_⟩
  calc text = front ++ trim text ++ back := whole
    _ = front ++ (before ++ (r.comparison.token ++ after)) ++ back := by rw [cut.parts]
    _ = front ++ ((front₁ ++ trim before ++ gap) ++
          (r.comparison.token ++ (gap' ++ trim after ++ back'))) ++ back := by
        rw [← left, ← right]
    _ = _ := by simp only [List.append_assoc]

/-- The three things that can come of a cut. -/
theorem read_of_splits {text before after : List Char} {c : Comparison}
    (cut : Splits (trim text) before c after) :
    ((Vocabulary.read? (trim before) : Option Subject) = none ∧
      read text = .error (.unknownIdentifier (String.ofList (trim before)))) ∨
    (∃ subject : Subject, Vocabulary.read? (trim before) = some subject ∧
      (Binary.read? (trim after) : Option Double) = none ∧
      read text = .error (.invalidNumber (String.ofList (trim after)))) ∨
    ∃ (subject : Subject) (threshold : Double), Vocabulary.read? (trim before) = some subject ∧
      Binary.read? (trim after) = some threshold ∧
      read text = .ok { subject, comparison := c, threshold } := by
  obtain ⟨left, right⟩ := splits_iff.mp cut
  subst left
  unfold read
  simp only [right]
  cases (Vocabulary.read?
      (trim ((trim text).span fun c => !Comparison.isOperator c).1) : Option Subject) with
  | none => exact .inl ⟨rfl, rfl⟩
  | some subject =>
    cases (Binary.read? (trim after) : Option Double) with
    | none => exact .inr (.inl ⟨subject, rfl, rfl, rfl⟩)
    | some threshold => exact .inr (.inr ⟨subject, threshold, rfl, rfl, rfl⟩)

theorem read_of_forall_not_splits {text : List Char}
    (uncut : ∀ before c after, ¬ Splits (trim text) before c after) :
    read text = .error (.missingOperator (String.ofList (trim text))) := by
  have none : Comparison.read?
      ((trim text).span fun c => !Comparison.isOperator c).2 = none := by
    cases found : Comparison.read?
        ((trim text).span fun c => !Comparison.isOperator c).2 with
    | none => rfl
    | some parts => exact absurd (splits_iff.mpr ⟨rfl, found⟩) (uncut _ parts.1 parts.2)
  simp only [read, none]

theorem splits_or_missing (text : List Char) :
    (∃ before c after, Splits (trim text) before c after) ∨
      (∀ before c after, ¬ Splits (trim text) before c after) ∧
        read text = .error (.missingOperator (String.ofList (trim text))) := by
  by_cases cut : ∃ before c after, Splits (trim text) before c after
  · exact .inl cut
  · have uncut : ∀ before c after, ¬ Splits (trim text) before c after :=
      fun before c after h => cut ⟨before, c, after, h⟩
    exact .inr ⟨uncut, read_of_forall_not_splits uncut⟩

theorem read_eq_ok_iff {text : List Char} {r : Requirement} :
    read text = .ok r ↔ Written text r := by
  constructor
  · intro h
    obtain ⟨before, c, after, cut⟩ | ⟨_, missing⟩ := splits_or_missing text
    · obtain ⟨_, read⟩ | ⟨_, _, _, read⟩ | ⟨_, _, subject, threshold, read⟩ := read_of_splits cut
      · rw [read] at h
        cases h
      · rw [read] at h
        cases h
      · rw [read] at h
        cases h
        exact written_of_splits cut subject threshold
    · rw [missing] at h
      cases h
  · intro h
    obtain ⟨before, after, cut, subject, threshold⟩ := splits_of_written h
    obtain ⟨none, _⟩ | ⟨_, _, none, _⟩ | ⟨_, _, subject', threshold', read⟩ := read_of_splits cut
    · rw [subject] at none
      cases none
    · rw [threshold] at none
      cases none
    · rw [subject, Option.some.injEq] at subject'
      rw [threshold, Option.some.injEq] at threshold'
      rw [read, ← subject', ← threshold']

/-! ## What is wrong -/

variable {text : List Char}

theorem missingOperator_iff {shown : String} :
    read text = .error (.missingOperator shown) ↔
      shown = String.ofList (trim text) ∧
        ∀ before c after, ¬ Splits (trim text) before c after := by
  constructor
  · intro h
    obtain ⟨before, c, after, cut⟩ | ⟨uncut, missing⟩ := splits_or_missing text
    · obtain ⟨_, read⟩ | ⟨_, _, _, read⟩ | ⟨_, _, _, _, read⟩ := read_of_splits cut <;>
        rw [read] at h <;> cases h
    · rw [missing] at h
      cases h
      exact ⟨rfl, uncut⟩
  · rintro ⟨rfl, uncut⟩
    exact read_of_forall_not_splits uncut

theorem unknownIdentifier_iff {shown : String} :
    read text = .error (.unknownIdentifier shown) ↔
      ∃ before c after, Splits (trim text) before c after ∧
        shown = String.ofList (trim before) ∧
        ∀ s : Subject, sameLetters (Vocabulary.word s).toList (trim before) = false := by
  constructor
  · intro h
    obtain ⟨before, c, after, cut⟩ | ⟨_, missing⟩ := splits_or_missing text
    · obtain ⟨unknown, read⟩ | ⟨_, _, _, read⟩ | ⟨_, _, _, _, read⟩ := read_of_splits cut
      · rw [read] at h
        cases h
        exact ⟨before, c, after, cut, rfl, Vocabulary.read?_eq_none_iff.mp unknown⟩
      · rw [read] at h
        cases h
      · rw [read] at h
        cases h
    · rw [missing] at h
      cases h
  · rintro ⟨before, c, after, cut, rfl, unknown⟩
    rw [← Vocabulary.read?_eq_none_iff] at unknown
    obtain ⟨_, read⟩ | ⟨_, known, _⟩ | ⟨_, _, known, _⟩ := read_of_splits cut
    · exact read
    · rw [unknown] at known
      cases known
    · rw [unknown] at known
      cases known

theorem invalidNumber_iff {shown : String} :
    read text = .error (.invalidNumber shown) ↔
      ∃ before c after, Splits (trim text) before c after ∧
        shown = String.ofList (trim after) ∧
        (∃ s : Subject, sameLetters (Vocabulary.word s).toList (trim before) = true) ∧
        (Binary.read? (trim after) : Option Double) = none := by
  constructor
  · intro h
    obtain ⟨before, c, after, cut⟩ | ⟨_, missing⟩ := splits_or_missing text
    · obtain ⟨_, read⟩ | ⟨s, known, number, read⟩ | ⟨_, _, _, _, read⟩ := read_of_splits cut
      · rw [read] at h
        cases h
      · rw [read] at h
        cases h
        exact ⟨before, c, after, cut, rfl, ⟨s, Vocabulary.read?_eq_some_iff.mp known⟩, number⟩
      · rw [read] at h
        cases h
    · rw [missing] at h
      cases h
  · rintro ⟨before, c, after, cut, rfl, ⟨s, known⟩, number⟩
    rw [← Vocabulary.read?_eq_some_iff] at known
    obtain ⟨unknown, _⟩ | ⟨_, _, _, read⟩ | ⟨_, _, _, number', _⟩ := read_of_splits cut
    · rw [known] at unknown
      cases unknown
    · exact read
    · rw [number] at number'
      cases number'

/-! ## When a slot may run -/

/-- No name begins like the mark of a repeated slot: `shield` comes closest. -/
theorem not_written_of_mark {front rest : List Char} (blank : Blank front) (r : Requirement) :
    ¬ Written (front ++ (repeatMark.toList ++ rest)) r := by
  rintro ⟨front', name, gap, gap', number, back, blank', _, _, _, named, _, whole⟩
  obtain ⟨plain, _⟩ := Vocabulary.plain_of_names named
  have begins : ∃ a b ns, name = a :: b :: ns ∧ ¬ (a = 'S' ∧ b = 'p') := by
    rw [sameLetters, beq_iff_eq] at named
    obtain _ | ⟨a, _ | ⟨b, ns⟩⟩ := name
    · cases s : r.subject <;> rw [s] at named <;> simp [Vocabulary.word] at named
    · cases s : r.subject <;> rw [s] at named <;> simp [Vocabulary.word] at named
    · refine ⟨a, b, ns, rfl, ?_⟩
      rintro ⟨rfl, rfl⟩
      cases s : r.subject <;> rw [s] at named <;> simp [Vocabulary.word] at named
  obtain ⟨a, b, ns, rfl, other⟩ := begins
  have visible : isBlank a = false := plain.visible a List.mem_cons_self
  have start := congrArg (List.dropWhile isBlank) whole
  rw [dropWhile_blank_append blank, dropWhile_blank_append blank'] at start
  have shown : (repeatMark.toList ++ rest).dropWhile isBlank =
      'S' :: 'p' :: ("endRepeat".toList ++ rest) := rfl
  simp only [shown, List.cons_append, List.append_assoc,
    List.dropWhile_cons_of_neg (Bool.eq_false_iff.mp visible), List.cons.injEq] at start
  exact other ⟨start.1.symm, start.2.1.symm⟩

theorem met_eq_false_iff {text : String} {s : Subjects} :
    met text s = false ↔ ∃ r, Written text.toList r ∧ r.holds s = false := by
  have trimmed : read (trim text.toList) = read text.toList := by
    simp only [read, trim_trim]
  constructor
  · intro h
    simp only [met, trimmed] at h
    split at h
    · cases h
    · split at h
      · rename_i r known
        exact ⟨r, read_eq_ok_iff.mp known, h⟩
      · cases h
  · rintro ⟨r, written, fails⟩
    have passes : ((trim text.toList).isEmpty ||
        (after? repeatMark.toList (trim text.toList)).isSome) = false := by
      rw [Bool.or_eq_false_iff]
      constructor
      · obtain ⟨before, after, cut, _, _⟩ := splits_of_written written
        obtain ⟨x, cs, token, _⟩ := r.comparison.exists_token
        rw [cut.parts, token]
        simp
      · cases marked : after? repeatMark.toList (trim text.toList) with
        | none => rfl
        | some rest =>
          obtain ⟨front, back, blank, _, whole⟩ := exists_trim text.toList
          rw [after?_eq_some_iff.mp marked, List.append_assoc, List.append_assoc] at whole
          exact absurd (whole ▸ written) (not_written_of_mark blank r)
    simp only [met, passes, trimmed, read_eq_ok_iff.mpr written]
    exact fails

end Requirement

/-! ## What a comparison means -/

/-- Integers of 32 bits are numbers of double precision. -/
theorem Binary.ofInt_eq_of_inRange {n : Int} (h : Amount.InRange n) :
    (ofInt n : Double) = .finite n := by
  refine ofRat_of_isPoint ⟨n, 0, by simp, ?_, by decide, by decide⟩
  have bits : (2 : Nat) ^ Format.double.precision = 9007199254740992 := by decide
  simp only [Amount.InRange, Amount.least, Amount.greatest] at h
  rw [bits]
  omega

/-- What a comparison says about an integer and a number. Not-a-number is in no order, so it
differs from everything and that is all. -/
def Comparison.Relates (c : Comparison) (n : Int) : Double → Prop
  | .nan => c = .ne
  | .infinite negative =>
    match c with
    | .ge | .gt => negative = true
    | .le | .lt => negative = false
    | .eq => False
    | .ne => True
  | .finite q =>
    match c with
    | .ge => q ≤ n
    | .le => (n : Rat) ≤ q
    | .gt => q < n
    | .lt => (n : Rat) < q
    | .eq => (n : Rat) = q
    | .ne => (n : Rat) ≠ q

theorem Comparison.holds_iff {n : Int} (h : Amount.InRange n) (c : Comparison) (x : Double) :
    c.holds (Binary.ofInt n) x = true ↔ c.Relates n x := by
  rw [Binary.ofInt_eq_of_inRange h]
  cases x with
  | nan => cases c <;> simp [holds, Relates, Binary.le, Binary.lt, Binary.same, Binary.order?]
  | infinite negative =>
    cases c <;> cases negative <;>
      simp [holds, Relates, Binary.le, Binary.lt, Binary.same, Binary.order?]
  | finite q =>
    rcases lt_trichotomy (n : Rat) q with below | equal | above
    · have above : ¬ q < n := not_lt.mpr below.le
      cases c <;> simp [holds, Relates, Binary.le, Binary.lt, Binary.same, Binary.order?, below,
        below.le, below.ne, below.ne', above]
    · subst equal
      cases c <;> simp [holds, Relates, Binary.le, Binary.lt, Binary.same, Binary.order?]
    · have below : ¬ (n : Rat) < q := not_lt.mpr above.le
      cases c <;> simp [holds, Relates, Binary.le, Binary.lt, Binary.same, Binary.order?, above,
        above.le, above.ne', below]

namespace Requirement

/-- The language of requirements: the texts that are read and what they say, the fault of every
other text, and the texts that keep a slot from running. -/
structure Language (text : String) : Prop where
  reads : ∀ r, read text.toList = .ok r ↔ Written text.toList r
  missingOperator : ∀ shown, read text.toList = .error (.missingOperator shown) ↔
    shown = String.ofList (trim text.toList) ∧
      ∀ before c after, ¬ Splits (trim text.toList) before c after
  unknownIdentifier : ∀ shown, read text.toList = .error (.unknownIdentifier shown) ↔
    ∃ before c after, Splits (trim text.toList) before c after ∧
      shown = String.ofList (trim before) ∧
      ∀ s : Subject, sameLetters (Vocabulary.word s).toList (trim before) = false
  invalidNumber : ∀ shown, read text.toList = .error (.invalidNumber shown) ↔
    ∃ before c after, Splits (trim text.toList) before c after ∧
      shown = String.ofList (trim after) ∧
      (∃ s : Subject, sameLetters (Vocabulary.word s).toList (trim before) = true) ∧
      (Binary.read? (trim after) : Option Double) = none
  fails : ∀ s, met text s = false ↔ ∃ r, Written text.toList r ∧ r.holds s = false
  meaning : ∀ (r : Requirement) (s : Subjects), Amount.InRange (s.value r.subject) →
    (r.holds s = true ↔ r.comparison.Relates (s.value r.subject) r.threshold)
  unreadable : (∀ r, ¬ Written text.toList r) → ∀ s, met text s = true
  marked : ∀ front rest, Blank front →
    text.toList = front ++ (repeatMark.toList ++ rest) → ∀ r, ¬ Written text.toList r

/-- **Language of requirements**: what `read` and `met` make of any text. -/
theorem language (text : String) : Language text where
  reads _ := read_eq_ok_iff
  missingOperator _ := missingOperator_iff
  unknownIdentifier _ := unknownIdentifier_iff
  invalidNumber _ := invalidNumber_iff
  fails _ := met_eq_false_iff
  meaning r s inRange := Comparison.holds_iff inRange r.comparison r.threshold
  unreadable := by
    intro unwritten s
    by_contra unmet
    rw [Bool.not_eq_true] at unmet
    obtain ⟨r, written, _⟩ := met_eq_false_iff.mp unmet
    exact unwritten r written
  marked := by
    intro front rest blank marked r
    rw [marked]
    exact not_written_of_mark blank r

/-- Blanks may stand anywhere but inside the token. -/
example : read " HP  >=\t25 ".toList = .ok ⟨.hp, .ge, .finite 25⟩ := by decide +kernel

example : read "hp>==3".toList = .error (.invalidNumber "=3") := by decide +kernel

end Requirement
end CardBattle
