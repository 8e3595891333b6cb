import CardBattle.Binary.Basic

/-!
# CardBattle.Binary.Interchange

The interchange encoding of a number: sign, exponent field and fraction as one natural number.
Points below the least normal one have the exponent field 0; infinities and not-a-number have
the largest one.
-/

namespace CardBattle
namespace Binary

variable {f : Format}

/-- What one step of the exponent field is worth. -/
def fieldUnit (f : Format) : Nat := Nat.pow 2 (f.precision - 1)

/-- The exponent field of infinity. -/
def topField (f : Format) : Nat := (f.highest - f.lowest + 2).toNat

def signUnit (f : Format) : Nat := (topField f + 1) * fieldUnit f

/-- The encoding of the magnitude of a finite point. -/
def magnitudeBits (f : Format) (q : Rat) : Nat :=
  if q = 0 then 0
  else
    let place := f.lastPlace q
    let m := (Format.magnitude q / Format.pow2 place).floor.toNat
    (place - f.lowest).toNat * fieldUnit f + m

/-- The encoding, or `none` for not-a-number, which has many. -/
def bits? : Binary f → Option Nat
  | .nan => none
  | .infinite s => some ((if s then signUnit f else 0) + topField f * fieldUnit f)
  | .finite q => some ((if q < 0 then signUnit f else 0) + magnitudeBits f q)

end Binary
end CardBattle
