import CardBattle.Binary.Basic
import CardBattle.Numeral

/-!
# CardBattle.Binary.Decimal

Numbers as decimal text. A numeral is an optional sign and either `inf`, `infinity` or `nan` in
any case, or digits with at most one point among them, at least one digit, and an optional
exponent `e` with its own sign. A numeral means its exact value, rounded once.

* `Decimal.read?`: the numerals with digits, as significand and power of ten.
* `Decimal.round`: the rounding of the exact value; powers far outside of the format are not
  computed.
* `Binary.read?`: the numerals.
-/

namespace CardBattle

/-- The value `significand * 10 ^ exponent`, or its opposite. -/
structure Decimal where
  negative : Bool
  significand : Nat
  exponent : Int
deriving DecidableEq

namespace Decimal

def pow10 : Int → Rat
  | .ofNat n => ((Nat.pow 10 n : Nat) : Rat)
  | .negSucc n => mkRat 1 (Nat.pow 10 (n + 1))

def size (d : Decimal) : Rat := (d.significand : Rat) * pow10 d.exponent

def value (d : Decimal) : Rat := if d.negative then -d.size else d.size

/-- The digits at the front of a text, and what follows them. -/
def spanDigits (cs : List Char) : List Char × List Char :=
  cs.span fun c => (Numeral.digit? c).isSome

/-- The exponent part: nothing, or `e`, an optional sign and digits. -/
def exponent? : List Char → Option Int
  | [] => some 0
  | c :: cs => if c = 'e' || c = 'E' then Numeral.signed? cs else none

/-- A numeral without its sign. -/
def unsigned? (cs : List Char) : Option (Nat × Int) :=
  let (whole, rest) := spanDigits cs
  let (part, rest) :=
    match rest with
    | '.' :: more => spanDigits more
    | _ => ([], rest)
  match Numeral.natural? (whole ++ part), exponent? rest with
  | some n, some e => some (n, e - (part.length : Int))
  | _, _ => none

/-- Rounds the exact value. A significand of at least 1 before a power of ten above
`8 ^ exponent` is beyond every point; one below `2 ^ (log2 + 1)` before a power of ten up to
`8 ^ exponent` is nearer to zero than to any other point. -/
def round (f : Format) (d : Decimal) : Binary f :=
  if d.significand = 0 then .finite 0
  else if f.highest + (f.precision : Int) < 3 * d.exponent then .infinite d.negative
  else if d.exponent < 0 ∧
      (Nat.log2 d.significand : Int) + 1 + 3 * d.exponent < f.lowest then .finite 0
  else Binary.ofRat d.value

end Decimal

/-- Splits an optional sign off; true stands for minus. -/
def splitSign : List Char → Bool × List Char
  | [] => (false, [])
  | c :: cs => if c = '-' then (true, cs) else if c = '+' then (false, cs) else (false, c :: cs)

def Binary.read? {f : Format} (cs : List Char) : Option (Binary f) :=
  let (negative, body) := splitSign cs
  if Text.sameLetters "inf".toList body || Text.sameLetters "infinity".toList body then
    some (.infinite negative)
  else if Text.sameLetters "nan".toList body then some .nan
  else
    match Decimal.unsigned? body with
    | none => none
    | some (n, e) => some (Decimal.round f ⟨negative, n, e⟩)

end CardBattle
