/-!
# CardBattle.Binary.Basic

Binary floating-point numbers. A number is not-a-number, an infinity or a finite rational, and
every operation is the exact one followed by one rounding: to the nearest point of the format,
of two equally near points to the even one, and to infinity beyond the largest point. Zero has
no sign.

* `Format`: how many bits a number has, and where its last place may stand.
* `ofRat`: the rounding.
* `add`, `sub`, `mul`, `div`, `lt`, `le`: arithmetic and order, false on not-a-number.
-/

namespace CardBattle

/-- A number has `precision` significant bits, and its last place is worth `2 ^ e` for some `e`
from `lowest` to `highest`. -/
structure Format where
  precision : Nat
  lowest : Int
  highest : Int
deriving DecidableEq

namespace Format

def single : Format := ⟨24, -149, 104⟩

def double : Format := ⟨53, -1074, 971⟩

/-- Two to an integer power. -/
def pow2 : Int → Rat
  | .ofNat n => ((Nat.pow 2 n : Nat) : Rat)
  | .negSucc n => mkRat 1 (Nat.pow 2 (n + 1))

def magnitude (q : Rat) : Rat := if q < 0 then -q else q

/-- The exponent of the highest power of two up to `q`, for a positive `q`. -/
def floorLog2 (q : Rat) : Int :=
  let e : Int := (Nat.log2 q.num.natAbs : Int) - (Nat.log2 q.den : Int)
  if pow2 e ≤ q then e else e - 1

/-- The nearest integer, of two the even one. -/
def roundEven (q : Rat) : Int :=
  let n := q.floor
  let r := q - (n : Rat)
  if r < 1 / 2 then n
  else if 1 / 2 < r then n + 1
  else if n % 2 = 0 then n
  else n + 1

/-- The exponent of the last place of `q` when it is written in the format. -/
def lastPlace (f : Format) (q : Rat) : Int :=
  max f.lowest (floorLog2 (magnitude q) + 1 - (f.precision : Int))

/-- The nearest point of the format, were there no largest one. -/
def nearest (f : Format) (q : Rat) : Rat :=
  if q = 0 then 0
  else
    let unit := pow2 (f.lastPlace q)
    (roundEven (q / unit) : Rat) * unit

def largest (f : Format) : Rat := ((Nat.pow 2 f.precision : Nat) - 1 : Rat) * pow2 f.highest

end Format

inductive Binary (f : Format) where
  | nan
  | infinite (negative : Bool)
  | finite (value : Rat)
deriving DecidableEq

/-- Single precision: 24 bits. -/
abbrev Single := Binary Format.single

/-- Double precision: 53 bits. -/
abbrev Double := Binary Format.double

namespace Binary

variable {f : Format}

instance : Inhabited (Binary f) := ⟨.finite 0⟩

/-- Rounds a rational to the format. -/
def ofRat (q : Rat) : Binary f :=
  let r := f.nearest q
  if f.largest < r then .infinite false
  else if r < -f.largest then .infinite true
  else .finite r

def ofInt (n : Int) : Binary f := ofRat (n : Rat)

def neg : Binary f → Binary f
  | .nan => .nan
  | .infinite s => .infinite !s
  | .finite q => .finite (-q)

def add : Binary f → Binary f → Binary f
  | .nan, _ => .nan
  | _, .nan => .nan
  | .infinite s, .infinite t => if s = t then .infinite s else .nan
  | .infinite s, .finite _ => .infinite s
  | .finite _, .infinite t => .infinite t
  | .finite a, .finite b => ofRat (a + b)

def sub (a b : Binary f) : Binary f := add a (neg b)

def mul : Binary f → Binary f → Binary f
  | .nan, _ => .nan
  | _, .nan => .nan
  | .infinite s, .infinite t => .infinite (s != t)
  | .infinite s, .finite q => if q = 0 then .nan else .infinite (s != decide (q < 0))
  | .finite q, .infinite t => if q = 0 then .nan else .infinite (decide (q < 0) != t)
  | .finite a, .finite b => ofRat (a * b)

/-- Division by zero counts the zero as positive. -/
def div : Binary f → Binary f → Binary f
  | .nan, _ => .nan
  | _, .nan => .nan
  | .infinite _, .infinite _ => .nan
  | .infinite s, .finite q => .infinite (s != decide (q < 0))
  | .finite _, .infinite _ => .finite 0
  | .finite a, .finite b =>
    if b = 0 then (if a = 0 then .nan else .infinite (decide (a < 0))) else ofRat (a / b)

instance : Neg (Binary f) := ⟨neg⟩
instance : Add (Binary f) := ⟨add⟩
instance : Sub (Binary f) := ⟨sub⟩
instance : Mul (Binary f) := ⟨mul⟩
instance : Div (Binary f) := ⟨div⟩

/-- The order of two numbers; not-a-number has none. -/
def order? : Binary f → Binary f → Option Ordering
  | .nan, _ => none
  | _, .nan => none
  | .infinite s, .infinite t => some (if s = t then .eq else if s then .lt else .gt)
  | .infinite s, .finite _ => some (if s then .lt else .gt)
  | .finite _, .infinite t => some (if t then .gt else .lt)
  | .finite a, .finite b => some (if a < b then .lt else if a = b then .eq else .gt)

def lt (a b : Binary f) : Bool := order? a b == some .lt

def le (a b : Binary f) : Bool := order? a b == some .lt || order? a b == some .eq

def same (a b : Binary f) : Bool := order? a b == some .eq

/-- Raises what is below zero, and not-a-number, to zero. -/
def floorAtZero (a : Binary f) : Binary f := if le (.finite 0) a then a else .finite 0

/-- The integer nearest to a rational; a half goes away from zero. -/
def roundHalfAway (q : Rat) : Int :=
  if q < 0 then -(-q + 1 / 2).floor else (q + 1 / 2).floor

/-- Rounds to an integer between `least` and `greatest`; not-a-number gives 0. -/
def roundWithin (least greatest : Int) : Binary f → Int
  | .nan => 0
  | .infinite s => if s then least else greatest
  | .finite q => max least (min greatest (roundHalfAway q))

def isIntegral : Binary f → Bool
  | .finite q => q.den == 1
  | _ => false

@[simp] theorem add_nan (a : Binary f) : add a .nan = .nan := by cases a <;> rfl

@[simp] theorem mul_nan (a : Binary f) : mul a .nan = .nan := by cases a <;> rfl

@[simp] theorem lt_nan (a : Binary f) : lt a .nan = false := by cases a <;> rfl

@[simp] theorem nan_lt (a : Binary f) : lt .nan a = false := by cases a <;> rfl

@[simp] theorem floorAtZero_nan : floorAtZero (.nan : Binary f) = .finite 0 := rfl

theorem roundWithin_le {least greatest : Int} (h : least ≤ 0) (h' : 0 ≤ greatest)
    (a : Binary f) : least ≤ roundWithin least greatest a ∧
      roundWithin least greatest a ≤ greatest := by
  cases a with
  | nan => exact ⟨h, h'⟩
  | infinite s => cases s <;> simp only [roundWithin] <;> simp <;> omega
  | finite q => simp only [roundWithin]; omega

end Binary
end CardBattle
