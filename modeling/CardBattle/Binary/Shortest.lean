import CardBattle.Binary.Decimal

/-!
# CardBattle.Binary.Shortest

The shortest decimal text of a number: the fewest digits that read back as the number, of two
such numerals the nearer, of two equally near the larger. It has no exponent.

* `shortest`: the digits and the power of ten.
* `Binary.toText`: the text.
-/

namespace CardBattle
namespace Decimal

/-- The point of the grid of step `unit` that reads back as the positive `q` and lies nearest
to it, if one does. -/
def onGrid? (f : Format) (q unit : Rat) : Option Nat :=
  let below := (q / unit).floor
  let readsBack (n : Int) : Bool := (Binary.ofRat ((n : Rat) * unit) : Binary f) == .finite q
  if readsBack (below + 1) && !(readsBack below && q - (below : Rat) * unit < unit / 2) then
    some (below + 1).toNat
  else if readsBack below then some below.toNat
  else none

/-- Tries the grids from `10 ^ exponent` downwards, each ten times as fine as the one before. -/
def shortestFrom (f : Format) (q : Rat) : Nat → Int → Nat × Int
  | 0, exponent => ((q / pow10 exponent).floor.toNat, exponent)
  | steps + 1, exponent =>
    match onGrid? f q (pow10 exponent) with
    | some n => (n, exponent)
    | none => shortestFrom f q steps (exponent - 1)

/-- Digits and power of ten of the shortest numeral of a positive point. The first grid is
coarser than the number, the last one holds every point of the format. -/
def shortest (f : Format) (q : Rat) : Nat × Int :=
  let top : Int := max 0 (Format.floorLog2 q) / 3 + 1
  shortestFrom f q (top - f.lowest).toNat top

/-- The text of `n * 10 ^ exponent`, with a point only before a fraction. -/
def positional (n : Nat) : Int → List Char
  | .ofNat zeros => Numeral.decimal n ++ List.replicate zeros '0'
  | .negSucc k =>
    let places := k + 1
    let digits := Numeral.decimal n
    let padded := List.replicate (places + 1 - digits.length) '0' ++ digits
    let whole := padded.length - places
    padded.take whole ++ '.' :: padded.drop whole

end Decimal

def Binary.toText {f : Format} : Binary f → List Char
  | .nan => "NaN".toList
  | .infinite s => if s then "-inf".toList else "inf".toList
  | .finite q =>
    if q = 0 then ['0']
    else
      let (n, e) := Decimal.shortest f (Format.magnitude q)
      if q < 0 then '-' :: Decimal.positional n e else Decimal.positional n e

end CardBattle
