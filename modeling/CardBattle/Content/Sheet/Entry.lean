import CardBattle.Content.Sheet.Scalar

/-!
# CardBattle.Content.Sheet.Entry

The tables of a settings sheet. A table comes from its header, from a header of a table in it, or
from a key with points; a series of tables comes from a header in double brackets, and later keys
go to its last table. No key gets two values, no table has two headers, and keys with points
stay out of tables that have a header.

* `Entries.put?`: assigns a value to a path of keys.
* `Entries.change?`: changes the table that a header opens.
-/

namespace CardBattle
namespace Sheet

/-- Where a table comes from. -/
inductive Origin where
  | header
  | innerHeader
  | points
deriving DecidableEq

/-- What stands under a key. -/
inductive Entry where
  | value (v : Assigned)
  | table (origin : Origin) (entries : List (String × Entry))
  | series (last : List (String × Entry))

abbrev Entries := List (String × Entry)

namespace Entries

def get? (es : Entries) (key : String) : Option Entry :=
  (es.find? fun e => e.1 == key).map fun e => e.2

/-- A new key stands behind all others. -/
def set (es : Entries) (key : String) (entry : Entry) : Entries :=
  match es with
  | [] => [(key, entry)]
  | e :: es => if e.1 = key then (key, entry) :: es else e :: set es key entry

/-- Assigns a value to a path of keys. Every table on the way comes from points, or is one that
the last key does not stand in and that has no header of its own. -/
def put? (v : Assigned) : List String → Entries → Option Entries
  | [], _ => none
  | [key], es =>
    match es.get? key with
    | none => some (es.set key (.value v))
    | some _ => none
  | key :: path, es =>
    match es.get? key with
    | none => (put? v path []).map fun sub => es.set key (.table .points sub)
    | some (.table origin sub) =>
      if origin = .points || (origin = .innerHeader && 1 < path.length) then
        (put? v path sub).map fun sub => es.set key (.table origin sub)
      else none
    | some (.series last) =>
      if 1 < path.length then (put? v path last).map fun last => es.set key (.series last)
      else none
    | some (.value _) => none

/-- Changes the table that a header with a path opens; `series` says that the header stands in
double brackets. -/
def change? (series : Bool) (change : Entries → Option Entries) :
    List String → Entries → Option Entries
  | [], _ => none
  | [key], es =>
    match es.get? key with
    | none =>
      (change []).map fun sub => es.set key (if series then .series sub else .table .header sub)
    | some (.table .innerHeader sub) =>
      if series then none else (change sub).map fun sub => es.set key (.table .header sub)
    | some (.series _) =>
      if series then (change []).map fun last => es.set key (.series last) else none
    | some _ => none
  | key :: path, es =>
    match es.get? key with
    | none => (change? series change path []).map fun sub => es.set key (.table .innerHeader sub)
    | some (.table origin sub) =>
      (change? series change path sub).map fun sub => es.set key (.table origin sub)
    | some (.series last) =>
      (change? series change path last).map fun last => es.set key (.series last)
    | some (.value _) => none

/-- All assignments in their order. -/
def putAll? (assignments : List (List String × Assigned)) (es : Entries) : Option Entries :=
  assignments.foldlM (fun es a => put? a.2 a.1 es) es

theorem get?_set (es : Entries) (key : String) (entry : Entry) :
    (es.set key entry).get? key = some entry := by
  induction es with
  | nil => simp [set, get?]
  | cons e es ih =>
    by_cases h : e.1 = key
    · simp [set, get?, h]
    · simp only [get?] at ih
      simp [set, get?, h, ih]

theorem get?_set_ne (es : Entries) (key other : String) (entry : Entry) (h : other ≠ key) :
    (es.set key entry).get? other = es.get? other := by
  induction es with
  | nil => simp [set, get?, Ne.symm h]
  | cons e es ih =>
    simp only [get?] at ih
    by_cases hk : e.1 = key
    · simp [set, get?, hk, Ne.symm h]
    · by_cases ho : e.1 = other
      · simp [set, get?, ho, h]
      · simp [set, get?, hk, ho, ih]

/-- A key that has a value gets no second one. -/
theorem put?_of_get? (v : Assigned) (key : String) (es : Entries) (entry : Entry)
    (h : es.get? key = some entry) : put? v [key] es = none := by
  simp [put?, h]

end Entries
end Sheet
end CardBattle
