import CardBattle.Binary.Decimal
import CardBattle.Content.Sheet.Moment
import CardBattle.Content.Reader

/-!
# CardBattle.Content.Sheet.Scalar

Values of settings sheets without quotes and brackets: integers, fractions, moments and truth
values. Between two digits of a number may stand one `_`, and a number has no zero before its
other digits. An integer may have the base `0x`, `0o` or `0b` if it has no sign.

* `Assigned`: an integer, or a value of another kind.
* `Scalar.read?`: the value that characters spell.
-/

namespace CardBattle

/-- What a settings sheet puts under a key: an integer, or a value that no setting has. -/
inductive Assigned where
  | integer (n : Int)
  | other
deriving DecidableEq

namespace Sheet
namespace Scalar

def isDigit (c : Char) : Bool := (Numeral.digit? c).isSome

def isHexDigit (c : Char) : Bool := (hexDigit? c).isSome

/-- The characters of scalars. A space stands only in a moment. -/
def inScalar (c : Char) : Bool :=
  c.isAlphanum || c = '_' || c = '+' || c = '-' || c = '.' || c = ':'

/-- Digits, one at least, without the marks between them. -/
def digits? : List Char → Option (List Char)
  | [] => none
  | [c] => if isHexDigit c then some [c] else none
  | c :: '_' :: cs => if isHexDigit c then (digits? cs).map (c :: ·) else none
  | c :: d :: cs => if isHexDigit c then (digits? (d :: cs)).map (c :: ·) else none

/-- Decimal digits without a zero before the others. -/
def plainDigits? (cs : List Char) : Option (List Char) :=
  match digits? cs with
  | none => none
  | some ds =>
    if ds.all isDigit && (ds.head? != some '0' || ds.length = 1) then some ds else none

/-- An integer without sign and base. -/
def unsigned? (cs : List Char) : Option Nat := (plainDigits? cs).bind Numeral.natural?

def inBase? (base : Nat) (cs : List Char) : Option Nat := (digits? cs).bind (digitsInBase? base 0)

def cutSign (cs : List Char) : Bool × List Char :=
  match cs with
  | '+' :: cs => (false, cs)
  | '-' :: cs => (true, cs)
  | cs => (false, cs)

/-- An integer of 128 bits. -/
def integer? (cs : List Char) : Option Int :=
  let n : Option Int :=
    match cs with
    | '0' :: 'x' :: cs => (inBase? 16 cs).map Int.ofNat
    | '0' :: 'o' :: cs => (inBase? 8 cs).map Int.ofNat
    | '0' :: 'b' :: cs => (inBase? 2 cs).map Int.ofNat
    | cs =>
      let (negative, body) := cutSign cs
      (unsigned? body).map fun n => if negative then -(n : Int) else n
  n.filter fun n =>
    -170141183460469231731687303715884105728 ≤ n && n ≤ 340282366920938463463374607431768211455

/-- An exponent, if there is one. -/
def isExponent (cs : List Char) : Bool :=
  match cs with
  | [] => true
  | c :: cs =>
    (c = 'e' || c = 'E') &&
      match digits? (cutSign cs).2 with
      | none => false
      | some ds => ds.all isDigit

/-- Digits with a fraction behind a point, an exponent, or both. -/
def isDecimal (cs : List Char) : Bool :=
  let inDigits (c : Char) : Bool := isDigit c || c = '_'
  (plainDigits? (cs.takeWhile inDigits)).isSome &&
    match cs.dropWhile inDigits with
    | [] => false
    | '.' :: cs =>
      (digits? (cs.takeWhile inDigits)).isSome && isExponent (cs.dropWhile inDigits)
    | cs => isExponent cs

/-- A number with a fraction or an exponent that is not too large, an infinity or
not-a-number. -/
def isFraction (cs : List Char) : Bool :=
  let body := (cutSign cs).2
  body == "inf".toList || body == "nan".toList ||
    (isDecimal body &&
      match (Binary.read? (body.filter fun c => c != '_') : Option Double) with
      | some (.finite _) => true
      | _ => false)

def isTruth (cs : List Char) : Bool := cs == "true".toList || cs == "false".toList

def ofText? (cs : List Char) : Option Assigned :=
  match integer? cs with
  | some n => some (.integer n)
  | none => if isTruth cs || isFraction cs || Moment.isMoment cs then some .other else none

/-- A scalar is as long as its characters go. Behind a day, a space and a digit go on with it. -/
def read? : Reader Assigned := fun cs =>
  let first := cs.takeWhile inScalar
  let rest := cs.dropWhile inScalar
  match rest with
  | ' ' :: d :: tail =>
    if Moment.isDay first && isDigit d then
      let second := (d :: tail).takeWhile inScalar
      (ofText? (first ++ ' ' :: second)).map fun v => (v, (d :: tail).dropWhile inScalar)
    else (ofText? first).map fun v => (v, rest)
  | _ => (ofText? first).map fun v => (v, rest)

end Scalar
end Sheet
end CardBattle
