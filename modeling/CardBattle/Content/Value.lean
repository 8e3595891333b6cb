import CardBattle.Content.Number
import CardBattle.Vocabulary

/-!
# CardBattle.Content.Value

The values of data files: texts, numbers, words, options, lists and records. Reading a value of
a wanted type from one never looks at fields that the type does not have, and refuses a field
that stands twice.

* `Value.int32?`, `single?`, `list?`, ...: values as data.
* `Fields.required?`, `optional?`: the fields of a record.
-/

namespace CardBattle

inductive Value where
  | text (content : String)
  | number (digits : List Char)
  | word (name : String)
  | none
  | some (v : Value)
  | list (items : List Value)
  | record (name : Option String) (fields : List (String × Value))
  /-- A value that no table has: a character, bytes, a tuple or a map. -/
  | foreign

abbrev Fields := List (String × Value)

/-- How a data file spells options and records. -/
structure Style where
  /-- A value may stand for `Some` of it. -/
  bareOptions : Bool := false
  /-- Every record has its name before it. -/
  namedRecords : Bool := false
deriving DecidableEq

namespace Value

def text? : Value → Option String
  | .text s => Option.some s
  | _ => Option.none

def int32? : Value → Option Int
  | .number cs => Number.int32? cs
  | _ => Option.none

def single? : Value → Option Single
  | .number cs => Number.single? cs
  | _ => Option.none

/-- A word of a vocabulary, exactly as it is written there. -/
def word? {α : Type} [Vocabulary α] : Value → Option α
  | .word s => Vocabulary.readExact? s.toList
  | .none => Vocabulary.readExact? "None".toList
  | _ => Option.none

def option? {α : Type} (style : Style) (reader : Value → Option α) : Value → Option (Option α)
  | .none => Option.some Option.none
  | .some v => (reader v).map Option.some
  | v => if style.bareOptions then (reader v).map Option.some else Option.none

def list? {α : Type} (reader : Value → Option α) : Value → Option (List α)
  | .list vs => vs.mapM reader
  | _ => Option.none

/-- The fields of a record of a type. A name before the record must be the type's. -/
def record? (style : Style) (type : String) : Value → Option Fields
  | .record Option.none fs => if style.namedRecords then Option.none else Option.some fs
  | .record (Option.some name) fs => if name = type then Option.some fs else Option.none
  | _ => Option.none

end Value

namespace Fields

/-- The value of a field, if it is there; `none` if it is there twice. -/
def once? (fs : Fields) (name : String) : Option (Option Value) :=
  match fs.filter fun f => f.1 == name with
  | [] => some none
  | [f] => some (some f.2)
  | _ => none

def required? {α : Type} (fs : Fields) (name : String) (reader : Value → Option α) :
    Option α :=
  match fs.once? name with
  | some (some v) => reader v
  | _ => none

def optional? {α : Type} (fs : Fields) (name : String) (default : α)
    (reader : Value → Option α) : Option α :=
  match fs.once? name with
  | none => none
  | some none => some default
  | some (some v) => reader v

end Fields
end CardBattle
