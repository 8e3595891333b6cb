import CardBattle.Fault
import CardBattle.Text
import Mathlib.Data.List.Forall2
import Mathlib.Data.List.TakeWhile

/-!
# CardBattle.Proofs.Rows

Texts of several fields, with separators between them and blanks around each. Trimming finds
exactly what stands between the blanks, if it begins and ends with a visible character, and a text
is cut exactly at its separators. So what is read from a row are the fields that were written.

* `Text.exists_trim`, `Text.trim_between`, `Text.trim_trim`: what trimming takes off.
* `Text.cut_eq_some_iff`, `Text.fields_eq_iff`: where a text is cut.
* `Text.Row`, `Text.row_iff`: fields as they are written, and as they are read.
* `Text.Grammar`: a reader of rows, by what it reads and what it finds wrong.
-/

namespace CardBattle

/-! ## Blanks around a text -/

namespace Text

def Blank (cs : List Char) : Prop := ∀ c ∈ cs, isBlank c = true

theorem blank_append {a b : List Char} : Blank (a ++ b) ↔ Blank a ∧ Blank b :=
  List.forall_mem_append

theorem dropWhile_blank_append {a : List Char} (blank : Blank a) (b : List Char) :
    (a ++ b).dropWhile isBlank = b.dropWhile isBlank :=
  List.dropWhile_append_of_pos blank

theorem dropWhile_of_visible {cs : List Char} (first : ∀ c ∈ cs.head?, isBlank c = false) :
    cs.dropWhile isBlank = cs := by
  cases cs with
  | nil => rfl
  | cons c cs =>
    have shown := first c rfl
    simp [shown]

/-- Trimming finds a text that begins and ends with a visible character. -/
theorem trim_between {front cs back : List Char} (blank : Blank front) (blank' : Blank back)
    (first : ∀ c ∈ cs.head?, isBlank c = false) (last : ∀ c ∈ cs.getLast?, isBlank c = false) :
    trim (front ++ (cs ++ back)) = cs := by
  have turned : Blank back.reverse := fun c hc => blank' c (List.mem_reverse.mp hc)
  have last' : ∀ c ∈ cs.reverse.head?, isBlank c = false := by
    rw [List.head?_reverse]
    exact last
  have start : trimStart (front ++ (cs ++ back)) = if cs = [] then [] else cs ++ back := by
    rw [trimStart, dropWhile_blank_append blank]
    split
    · rename_i none
      rw [none, List.nil_append, List.dropWhile_eq_nil_iff]
      exact blank'
    · rename_i some
      refine dropWhile_of_visible ?_
      rw [List.head?_append_of_ne_nil _ some]
      exact first
  rw [trim, start]
  split
  · rename_i none
    rw [none]
    rfl
  · rw [trimEnd, List.reverse_append, dropWhile_blank_append turned, dropWhile_of_visible last',
      List.reverse_reverse]

theorem exists_trimEnd (cs : List Char) : ∃ back, Blank back ∧ cs = trimEnd cs ++ back := by
  have whole := List.takeWhile_append_dropWhile (p := isBlank) (l := cs.reverse)
  have turned := congrArg List.reverse whole
  rw [List.reverse_append, List.reverse_reverse] at turned
  refine ⟨(cs.reverse.takeWhile isBlank).reverse, ?_, turned.symm⟩
  intro c hc
  exact List.mem_takeWhile_imp (List.mem_reverse.mp hc)

/-- Trimming takes blanks off at both ends. -/
theorem exists_trim (cs : List Char) :
    ∃ front back, Blank front ∧ Blank back ∧ cs = front ++ trim cs ++ back := by
  have front : Blank (cs.takeWhile isBlank) := fun c hc => List.mem_takeWhile_imp hc
  have left : cs = cs.takeWhile isBlank ++ trimStart cs :=
    List.takeWhile_append_dropWhile.symm
  obtain ⟨back, blank, right⟩ := exists_trimEnd (trimStart cs)
  refine ⟨_, back, front, blank, ?_⟩
  rw [List.append_assoc, trim, ← right]
  exact left

/-- What is trimmed begins and ends with a visible character. -/
theorem visible_ends (cs : List Char) :
    (∀ c ∈ (trim cs).head?, isBlank c = false) ∧ ∀ c ∈ (trim cs).getLast?, isBlank c = false := by
  have shown : ∀ {ds : List Char}, ∀ c ∈ (ds.dropWhile isBlank).head?, isBlank c = false := by
    intro ds c hc
    have stop := List.head?_dropWhile_not isBlank ds
    rw [hc] at stop
    exact stop
  constructor
  · intro c hc
    obtain ⟨back, _, whole⟩ := exists_trimEnd (trimStart cs)
    refine @shown cs c ?_
    have start : cs.dropWhile isBlank = trim cs ++ back := whole
    rw [start]
    cases trimmed : trim cs with
    | nil =>
      rw [trimmed] at hc
      cases hc
    | cons d ds =>
      rw [trimmed] at hc
      exact hc
  · intro c hc
    rw [trim, trimEnd, List.getLast?_reverse] at hc
    exact shown c hc

theorem trim_trim (cs : List Char) : trim (trim cs) = trim cs := by
  obtain ⟨first, last⟩ := visible_ends cs
  have none : Blank [] := List.forall_mem_nil _
  have found := trim_between none none first last
  rwa [List.nil_append, List.append_nil] at found

/-! ## Separators -/

variable {sep : Char} {cs a b : List Char}

theorem cut_eq_some_iff : cut sep cs = some (a, b) ↔ sep ∉ a ∧ cs = a ++ sep :: b := by
  constructor
  · intro h
    refine ⟨?_, eq_of_cut h⟩
    induction cs generalizing a with
    | nil => cases h
    | cons c cs ih =>
      simp only [cut] at h
      split at h
      · cases h
        exact List.not_mem_nil
      · rename_i other
        split at h
        · cases h
        · rename_i found
          cases h
          exact List.not_mem_cons_of_ne_of_not_mem (Ne.symm other) (ih found)
  · rintro ⟨first, rfl⟩
    induction a with
    | nil => simp [cut]
    | cons c a ih =>
      rw [List.mem_cons, not_or] at first
      simp only [List.cons_append, cut, if_neg (Ne.symm first.1), ih first.2]

theorem cut_eq_none_iff : cut sep cs = none ↔ sep ∉ cs := by
  constructor
  · intro none there
    obtain ⟨a, b, whole, first⟩ := List.eq_append_cons_of_mem there
    rw [cut_eq_some_iff.mpr ⟨first, whole⟩] at none
    cases none
  · intro absent
    cases found : cut sep cs with
    | none => rfl
    | some parts =>
      rw [eq_of_cut (a := parts.1) (b := parts.2) found] at absent
      simp at absent

theorem fields_of_not_mem (h : sep ∉ cs) : fields sep cs = [cs] := by
  induction cs with
  | nil => rfl
  | cons c cs ih =>
    rw [List.mem_cons, not_or] at h
    simp only [fields, ih h.2, if_neg (Ne.symm h.1)]

theorem fields_append_cons (first : sep ∉ a) :
    fields sep (a ++ sep :: b) = a :: fields sep b := by
  induction a with
  | nil => simp [fields]
  | cons c a ih =>
    rw [List.mem_cons, not_or] at first
    simp only [List.cons_append, fields, if_neg (Ne.symm first.1), ih first.2]

theorem length_fields (sep : Char) (cs : List Char) :
    (fields sep cs).length = cs.count sep + 1 := by
  induction cs with
  | nil => rfl
  | cons c cs ih =>
    by_cases here : c = sep
    · simp [fields, here, ih]
    · obtain ⟨first, rest, parts⟩ := List.exists_cons_of_ne_nil (fields_ne_nil sep cs)
      rw [parts, List.length_cons] at ih
      simp only [fields, if_neg here, parts, List.length_cons, List.count_cons_of_ne here, ih]

/-- The parts of a text between its separators. -/
def Parts (sep : Char) (text : List Char) (parts : List (List Char)) : Prop :=
  parts ≠ [] ∧ (∀ p ∈ parts, sep ∉ p) ∧ text = [sep].intercalate parts

theorem parts_fields (sep : Char) (cs : List Char) : Parts sep cs (fields sep cs) := by
  refine ⟨fields_ne_nil sep cs, ?_⟩
  induction cs with
  | nil => simp [fields]
  | cons c cs ih =>
    obtain ⟨first, rest, parts⟩ := List.exists_cons_of_ne_nil (fields_ne_nil sep cs)
    rw [parts] at ih
    obtain ⟨each, whole⟩ := ih
    by_cases here : c = sep
    · rw [fields, if_pos here, parts]
      refine ⟨List.forall_mem_cons.mpr ⟨List.not_mem_nil, each⟩, ?_⟩
      rw [List.intercalate_cons_cons, ← whole, here]
      rfl
    · obtain ⟨absent, others⟩ := List.forall_mem_cons.mp each
      simp only [fields, if_neg here, parts]
      have absent' := List.not_mem_cons_of_ne_of_not_mem (Ne.symm here) absent
      refine ⟨List.forall_mem_cons.mpr ⟨absent', others⟩, ?_⟩
      cases rest with
      | nil => rw [whole, List.intercalate_singleton, List.intercalate_singleton]
      | cons second rest =>
        rw [whole, List.intercalate_cons_cons, List.intercalate_cons_cons]
        rfl

theorem Parts.fields_eq {parts : List (List Char)} (h : Parts sep cs parts) :
    fields sep cs = parts := by
  obtain ⟨some, each, rfl⟩ := h
  induction parts with
  | nil => exact absurd rfl some
  | cons first rest ih =>
    obtain ⟨absent, others⟩ := List.forall_mem_cons.mp each
    cases rest with
    | nil => rw [List.intercalate_singleton, fields_of_not_mem absent]
    | cons second rest =>
      rw [List.intercalate_cons_cons, List.append_assoc, List.singleton_append,
        fields_append_cons absent, ih (List.cons_ne_nil _ _) others]

/-- A text is cut exactly at its separators. -/
theorem fields_eq_iff {parts : List (List Char)} : fields sep cs = parts ↔ Parts sep cs parts :=
  ⟨fun h => h ▸ parts_fields sep cs, Parts.fields_eq⟩

/-! ## Rows -/

/-- No blank at either end. -/
def Tight (cs : List Char) : Prop :=
  (∀ c ∈ cs.head?, isBlank c = false) ∧ ∀ c ∈ cs.getLast?, isBlank c = false

/-- A text between blanks. -/
def Padded (text inner : List Char) : Prop :=
  ∃ front back, Blank front ∧ Blank back ∧ text = front ++ (inner ++ back)

/-- Fields as they are written, with separators between them and blanks around each. -/
def Row (sep : Char) (text : List Char) (fields : List (List Char)) : Prop :=
  ∃ parts, List.Forall₂ Padded parts fields ∧ text = [sep].intercalate parts

/-- What a field can be: a text without outer blanks and separators. -/
structure Cell (sep : Char) (field : List Char) : Prop where
  absent : sep ∉ field
  tight : Tight field

theorem tight_nil : Tight [] :=
  ⟨fun c hc => absurd hc (Option.not_mem_none c), fun c hc => absurd hc (Option.not_mem_none c)⟩

theorem tight_of_visible (h : ∀ c ∈ cs, isBlank c = false) : Tight cs :=
  ⟨fun c hc => h c (List.mem_of_mem_head? hc), fun c hc => h c (List.mem_of_mem_getLast? hc)⟩

theorem padded_trim (cs : List Char) : Padded cs (trim cs) := by
  obtain ⟨front, back, blank, blank', whole⟩ := exists_trim cs
  exact ⟨front, back, blank, blank', by rw [← List.append_assoc]; exact whole⟩

theorem Padded.trim_eq {text inner : List Char} (h : Padded text inner) (tight : Tight inner) :
    trim text = inner := by
  obtain ⟨front, back, blank, blank', rfl⟩ := h
  exact trim_between blank blank' tight.1 tight.2

theorem padded_self (cs : List Char) : Padded cs cs :=
  ⟨[], [], List.forall_mem_nil _, List.forall_mem_nil _, by simp⟩

theorem Tight.trim_eq (tight : Tight cs) : trim cs = cs := (padded_self cs).trim_eq tight

theorem trim_of_blank (blank : Blank cs) : trim cs = [] := by
  refine Padded.trim_eq ⟨cs, [], blank, List.forall_mem_nil _, ?_⟩ tight_nil
  rw [List.append_nil, List.append_nil]

theorem trim_eq_nil_iff : trim cs = [] ↔ Blank cs := by
  refine ⟨fun none => ?_, trim_of_blank⟩
  obtain ⟨front, back, blank, blank', whole⟩ := padded_trim cs
  rw [none, List.nil_append] at whole
  rw [whole]
  exact blank_append.mpr ⟨blank, blank'⟩

theorem Blank.not_mem (blank : Blank cs) (visible : isBlank sep = false) : sep ∉ cs := by
  intro there
  rw [blank sep there] at visible
  cases visible

theorem Padded.not_mem {text inner : List Char} (h : Padded text inner)
    (visible : isBlank sep = false) (absent : sep ∉ inner) : sep ∉ text := by
  obtain ⟨front, back, blank, blank', rfl⟩ := h
  rw [List.mem_append, List.mem_append, not_or, not_or]
  exact ⟨blank.not_mem visible, absent, blank'.not_mem visible⟩

theorem mem_trim_iff (visible : isBlank sep = false) : sep ∈ trim cs ↔ sep ∈ cs := by
  obtain ⟨front, back, blank, blank', whole⟩ := padded_trim cs
  conv_rhs => rw [whole, List.mem_append, List.mem_append]
  simp only [blank.not_mem visible, blank'.not_mem visible, false_or, or_false]

theorem cell_trim (visible : isBlank sep = false) (absent : sep ∉ cs) : Cell sep (trim cs) :=
  ⟨fun there => absent ((mem_trim_iff visible).mp there), visible_ends cs⟩

theorem Padded.trans {text middle inner : List Char} (h : Padded text middle)
    (h' : Padded middle inner) : Padded text inner := by
  obtain ⟨front, back, blank, blank', rfl⟩ := h
  obtain ⟨front', back', blank₁, blank₂, rfl⟩ := h'
  refine ⟨front ++ front', back' ++ back, blank_append.mpr ⟨blank, blank₁⟩,
    blank_append.mpr ⟨blank₂, blank'⟩, ?_⟩
  simp only [List.append_assoc]

/-- What is read of a trimmed text stands between blanks. -/
theorem read_trim_iff {α : Type} {reader : List Char → Option α} {text : List Char} {a : α}
    (tight : ∀ inner, reader inner = some a → Tight inner) :
    reader (trim text) = some a ↔ ∃ inner, Padded text inner ∧ reader inner = some a := by
  constructor
  · intro read
    exact ⟨trim text, padded_trim text, read⟩
  · rintro ⟨inner, padded, read⟩
    rw [padded.trim_eq (tight inner read)]
    exact read

/-- Blanks around a text do not change what trimming finds. -/
theorem Padded.trim_congr {text inner : List Char} (h : Padded text inner) :
    trim text = trim inner :=
  (h.trans (padded_trim inner)).trim_eq (visible_ends inner)

variable {text : List Char} {parts row : List (List Char)}

theorem map_trim_of_padded (h : List.Forall₂ Padded parts row) (cells : ∀ f ∈ row, Cell sep f) :
    parts.map trim = row := by
  induction h with
  | nil => rfl
  | cons padded _ ih =>
    obtain ⟨cell, cells⟩ := List.forall_mem_cons.mp cells
    rw [List.map_cons, padded.trim_eq cell.tight, ih cells]

theorem not_mem_of_padded (visible : isBlank sep = false) (h : List.Forall₂ Padded parts row)
    (cells : ∀ f ∈ row, Cell sep f) : ∀ p ∈ parts, sep ∉ p := by
  induction h with
  | nil => exact List.forall_mem_nil _
  | cons padded _ ih =>
    obtain ⟨cell, cells⟩ := List.forall_mem_cons.mp cells
    exact List.forall_mem_cons.mpr ⟨padded.not_mem visible cell.absent, ih cells⟩

theorem row_trim_fields (sep : Char) (text : List Char) :
    Row sep text ((fields sep text).map trim) := by
  refine ⟨fields sep text, ?_, (parts_fields sep text).2.2⟩
  rw [List.forall₂_map_right_iff, List.forall₂_same]
  exact fun p _ => padded_trim p

theorem count_of_map_trim_fields (h : (fields sep text).map trim = row) :
    text.count sep + 1 = row.length := by
  rw [← h, List.length_map, length_fields]

/-- The fields that were written are those that are read. -/
theorem row_iff (visible : isBlank sep = false) (some : row ≠ [])
    (cells : ∀ f ∈ row, Cell sep f) : Row sep text row ↔ (fields sep text).map trim = row := by
  constructor
  · rintro ⟨parts, padded, rfl⟩
    have same := map_trim_of_padded padded cells
    have some' : parts ≠ [] := by
      rintro rfl
      exact some same.symm
    rw [Parts.fields_eq ⟨some', not_mem_of_padded visible padded cells, rfl⟩]
    exact same
  · intro h
    rw [← h]
    exact row_trim_fields sep text

theorem row_singleton {f : List Char} : Row sep text [f] ↔ Padded text f := by
  constructor
  · rintro ⟨parts, padded, rfl⟩
    obtain ⟨part, rest, padded, last, rfl⟩ := List.forall₂_cons_right_iff.mp padded
    rw [List.forall₂_nil_right_iff] at last
    subst last
    rwa [List.intercalate_singleton]
  · intro padded
    exact ⟨[text], .cons padded .nil, List.intercalate_singleton.symm⟩

theorem row_pair {f g : List Char} :
    Row sep text [f, g] ↔ ∃ a b, Padded a f ∧ Padded b g ∧ text = a ++ sep :: b := by
  constructor
  · rintro ⟨parts, padded, rfl⟩
    obtain ⟨a, rest, first, padded', rfl⟩ := List.forall₂_cons_right_iff.mp padded
    obtain ⟨b, rest', second, last, rfl⟩ := List.forall₂_cons_right_iff.mp padded'
    rw [List.forall₂_nil_right_iff] at last
    subst last
    exact ⟨a, b, first, second, by simp [List.intercalate_cons_cons]⟩
  · rintro ⟨a, b, first, second, rfl⟩
    exact ⟨[a, b], .cons first (.cons second .nil), by simp [List.intercalate_cons_cons]⟩

/-- A row of two fields is cut between them. -/
theorem exists_cut_of_row {f g : List Char} (visible : isBlank sep = false) (cell : Cell sep f)
    (tight : Tight g) (h : Row sep text [f, g]) :
    ∃ a b, cut sep text = some (a, b) ∧ trim a = f ∧ trim b = g := by
  obtain ⟨a, b, first, second, whole⟩ := row_pair.mp h
  exact ⟨a, b, cut_eq_some_iff.mpr ⟨first.not_mem visible cell.absent, whole⟩,
    first.trim_eq cell.tight, second.trim_eq tight⟩

theorem row_of_cut (h : cut sep text = some (a, b)) : Row sep text [trim a, trim b] :=
  row_pair.mpr ⟨a, b, padded_trim a, padded_trim b, (cut_eq_some_iff.mp h).2⟩

/-! ## Rows between blanks -/

theorem exists_fields_append (sep : Char) (a b : List Char) :
    ∃ init last first rest, fields sep a = init ++ [last] ∧ fields sep b = first :: rest ∧
      fields sep (a ++ b) = init ++ (last ++ first) :: rest := by
  obtain ⟨first, rest, right⟩ := List.exists_cons_of_ne_nil (fields_ne_nil sep b)
  induction a with
  | nil => exact ⟨[], [], first, rest, rfl, right, right⟩
  | cons c a ih =>
    obtain ⟨init, last, first, rest, left, right, both⟩ := ih
    by_cases here : c = sep
    · refine ⟨[] :: init, last, first, rest, ?_, right, ?_⟩
      · rw [fields, if_pos here, left]
        rfl
      · rw [List.cons_append, fields, if_pos here, both]
        rfl
    · cases init with
      | nil =>
        refine ⟨[], c :: last, first, rest, ?_, right, ?_⟩
        · simp only [fields, if_neg here, left, List.nil_append]
        · simp only [List.cons_append, fields, if_neg here, both, List.nil_append]
      | cons i init =>
        refine ⟨(c :: i) :: init, last, first, rest, ?_, right, ?_⟩
        · simp only [fields, if_neg here, left, List.cons_append]
        · simp only [List.cons_append, fields, if_neg here, both]

theorem map_trim_fields_front (visible : isBlank sep = false) (blank : Blank a) :
    (fields sep (a ++ b)).map trim = (fields sep b).map trim := by
  obtain ⟨init, last, first, rest, left, right, both⟩ := exists_fields_append sep a b
  rw [fields_of_not_mem (blank.not_mem visible)] at left
  cases init with
  | nil =>
    rw [List.nil_append, List.cons.injEq] at left
    obtain ⟨rfl, -⟩ := left
    have none : Blank [] := List.forall_mem_nil _
    have same : trim (a ++ first) = trim first :=
      Padded.trim_congr ⟨a, [], blank, none, by rw [List.append_nil]⟩
    rw [both, right, List.nil_append, List.map_cons, List.map_cons, same]
  | cons i init => simp at left

theorem map_trim_fields_back (visible : isBlank sep = false) (blank : Blank b) :
    (fields sep (a ++ b)).map trim = (fields sep a).map trim := by
  obtain ⟨init, last, first, rest, left, right, both⟩ := exists_fields_append sep a b
  rw [fields_of_not_mem (blank.not_mem visible), List.cons.injEq] at right
  obtain ⟨rfl, rfl⟩ := right
  have none : Blank [] := List.forall_mem_nil _
  have same : trim (last ++ b) = trim last := Padded.trim_congr ⟨[], b, none, blank, rfl⟩
  rw [both, left, List.map_append, List.map_append, List.map_singleton, List.map_singleton, same]

/-- The fields of a text do not change when the text is trimmed. -/
theorem map_trim_fields_trim (visible : isBlank sep = false) (cs : List Char) :
    (fields sep (trim cs)).map trim = (fields sep cs).map trim := by
  obtain ⟨front, back, blank, blank', whole⟩ := padded_trim cs
  conv_rhs => rw [whole]
  rw [map_trim_fields_front visible blank, map_trim_fields_back visible blank']

theorem row_trim_iff (visible : isBlank sep = false) (some : row ≠ [])
    (cells : ∀ f ∈ row, Cell sep f) : Row sep (trim text) row ↔ Row sep text row := by
  rw [row_iff visible some cells, row_iff visible some cells, map_trim_fields_trim visible]

/-! ## Grammars -/

/-- A grammar of rows: what is read are the rows whose fields spell something, and there is
something wrong with every other text. What has fields is what can be written. -/
structure Grammar {ε α : Type} (read : List Char → Except ε α)
    (Spells : α → List (List Char) → Prop) (Wrong : List Char → ε → Prop) (Writable : α → Prop)
    (text : List Char) : Prop where
  reads : ∀ a, read text = .ok a ↔ ∃ fields, Spells a fields ∧ Row ',' text fields
  faults : ∀ e, read text = .error e ↔ Wrong text e
  writable : ∀ a, Writable a ↔ ∃ fields, Spells a fields

theorem grammar_of_total {ε α : Type} {read : List Char → Except ε α}
    {Spells : α → List (List Char) → Prop} {Wrong : List Char → ε → Prop} {Writable : α → Prop}
    (right : ∀ {a fields}, Spells a fields → Row ',' text fields → read text = .ok a)
    (wrong : ∀ {e}, Wrong text e → read text = .error e)
    (total : (∃ a, ∃ fields, Spells a fields ∧ Row ',' text fields) ∨ ∃ e, Wrong text e)
    (writable : ∀ {a}, Writable a ↔ ∃ fields, Spells a fields) :
    Grammar read Spells Wrong Writable text := by
  have answer := answer_iff (fun a ⟨fields, spells, row⟩ => right spells row)
    (fun _ => wrong) total
  exact ⟨answer.1, answer.2, fun _ => writable⟩

end Text
end CardBattle
