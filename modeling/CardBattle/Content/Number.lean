import CardBattle.Binary.Decimal
import CardBattle.Content.Reader

/-!
# CardBattle.Content.Number

Numbers of data files. An integer is an optional sign, an optional base (`0b`, `0o` or `0x`) and
digits with `_` between or behind them; a fraction has a point or an exponent, or is `inf` or
`NaN`. A number may end in a type, such as `i32` or `f64`; a reader that wants another type
refuses it.

* `Number.isNumber`: whether characters are a number of some kind.
* `Number.int32?`, `single?`: the number as an integer of 32 bits, or in single precision.
-/

namespace CardBattle
namespace Number

def isDigit (c : Char) : Bool := (Numeral.digit? c).isSome

/-- The characters of which numbers consist, with their signs, bases and types. -/
def inNumber (c : Char) : Bool :=
  c.isAlphanum || c = '_' || c = '.' || c = '+' || c = '-'

def startsNumber (c : Char) : Bool := isDigit c || c = '+' || c = '-' || c = '.'

def inInteger (c : Char) : Bool := (hexDigit? c).isSome || c = '_'

/-- The types that may stand behind an integer, with the least and the greatest number. -/
def integerTypes : List (String × Int × Int) :=
  [ ("i8", -128, 127), ("i16", -32768, 32767), ("i32", -2147483648, 2147483647),
    ("i64", -9223372036854775808, 9223372036854775807), ("u8", 0, 255), ("u16", 0, 65535),
    ("u32", 0, 4294967295), ("u64", 0, 18446744073709551615) ]

/-- A sign and what it stands before. -/
def cutSign (cs : List Char) : Bool × List Char :=
  match cs with
  | '+' :: cs => (false, cs)
  | '-' :: cs => (true, cs)
  | cs => (false, cs)

/-- The base of an integer without its sign, and the digits. -/
def cutBase (cs : List Char) : Nat × List Char :=
  match cs with
  | '0' :: 'b' :: cs => (2, cs)
  | '0' :: 'o' :: cs => (8, cs)
  | '0' :: 'x' :: cs => (16, cs)
  | cs => (10, cs)

/-- An integer without sign and type. A `_` may stand anywhere but first. -/
def magnitude? (cs : List Char) : Option Nat :=
  let (base, digits) := cutBase cs
  match digits with
  | [] => none
  | c :: _ => if c = '_' then none else digitsInBase? base 0 (digits.filter fun c => c != '_')

/-- An integer with the type behind it, if it has one. Without a type it has up to 64 bits. -/
def integer? (cs : List Char) : Option (Int × Option String) :=
  let (negative, body) := cutSign cs
  let signed (n : Nat) : Int := if negative then -(n : Int) else n
  let suffix := String.ofList (body.dropWhile inInteger)
  match integerTypes.find? fun t => t.1 == suffix with
  | none =>
    match magnitude? body with
    | none => none
    | some n => if n ≤ (if negative then 9223372036854775808 else 18446744073709551615) then
        some (signed n, none) else none
  | some (type, least, greatest) =>
    match magnitude? (body.takeWhile inInteger) with
    | none => none
    | some n =>
      if least ≤ signed n && signed n ≤ greatest then some (signed n, some type) else none

def int32? (cs : List Char) : Option Int :=
  match integer? cs with
  | none => none
  | some (n, type) =>
    if type != none && type != some "i32" then none
    else if -2147483648 ≤ n && n ≤ 2147483647 then some n
    else none

/-- A fraction without the marks between its digits: a `_` stands behind the first digit, and
not right behind a point. -/
def dropMarks : Bool → List Char → Option (List Char)
  | _, [] => some []
  | allowed, c :: cs =>
    if c = '_' then if allowed then dropMarks true cs else none
    else
      let allowed := isDigit c || c = 'e' || c = 'E' || (allowed && c != '.')
      (dropMarks allowed cs).map (c :: ·)

/-- A fraction without its type, with the type. -/
def cutPrecision (cs : List Char) : List Char × Option String :=
  if "f32".toList.isSuffixOf cs then (cs.take (cs.length - 3), some "f32")
  else if "f64".toList.isSuffixOf cs then (cs.take (cs.length - 3), some "f64")
  else (cs, none)

/-- The value of a fraction without its type. -/
def fraction? (cs : List Char) : Option Single :=
  let (negative, body) := cutSign cs
  if body == "inf".toList then some (.infinite negative)
  else if body == "NaN".toList then some .nan
  else if cs.all fun c => isDigit c || c = 'e' || c = 'E' || c = '.' || c = '+' || c = '-' ||
      c = '_' then
    (dropMarks false cs).bind Binary.read?
  else none

/-- An integer is a fraction too if it is written without base and type. -/
def single? (cs : List Char) : Option Single :=
  let (body, type) := cutPrecision cs
  if type = some "f64" then none else fraction? body

def isNumber (cs : List Char) : Bool :=
  (integer? cs).isSome || (fraction? (cutPrecision cs).1).isSome

end Number
end CardBattle
