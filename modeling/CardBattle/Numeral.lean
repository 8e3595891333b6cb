import CardBattle.Text

/-!
# CardBattle.Numeral

Decimal integers as text. A signed numeral is an optional `+` or `-` and digits; an unsigned
one allows `+` only. Each reader has the range of the quantity it reads, and a number outside
of it is no numeral of that kind.

* `decimal`: the digits of a natural number, without leading zeros.
* `int32?`, `int64?`, `nat32?`, `nat64?`: the readers.
-/

namespace CardBattle
namespace Numeral

def digit? (c : Char) : Option Nat :=
  if 48 ≤ c.toNat && c.toNat ≤ 57 then some (c.toNat - 48) else none

def digitChar (d : Nat) : Char := Char.ofNat (48 + d)

/-- Reads digits to the end of the text, behind digits of value `acc`. -/
def digitsFrom (acc : Nat) : List Char → Option Nat
  | [] => some acc
  | c :: cs =>
    match digit? c with
    | none => none
    | some d => digitsFrom (10 * acc + d) cs

/-- At least one digit, and nothing else. -/
def natural? : List Char → Option Nat
  | [] => none
  | c :: cs => digitsFrom 0 (c :: cs)

def signed? : List Char → Option Int
  | [] => none
  | c :: cs =>
    if c = '-' then (natural? cs).map fun n => -(n : Int)
    else if c = '+' then (natural? cs).map fun n => (n : Int)
    else (natural? (c :: cs)).map fun n => (n : Int)

def unsigned? : List Char → Option Nat
  | [] => none
  | c :: cs => if c = '+' then natural? cs else natural? (c :: cs)

def int32? (cs : List Char) : Option Int :=
  (signed? cs).filter fun n => -2147483648 ≤ n && n ≤ 2147483647

def int64? (cs : List Char) : Option Int :=
  (signed? cs).filter fun n => -9223372036854775808 ≤ n && n ≤ 9223372036854775807

def nat32? (cs : List Char) : Option Nat := (unsigned? cs).filter fun n => n ≤ 4294967295

def nat64? (cs : List Char) : Option Nat :=
  (unsigned? cs).filter fun n => n ≤ 18446744073709551615

/-- The digits of a number, most significant first. -/
def decimal (n : Nat) : List Char :=
  if n < 10 then [digitChar n] else decimal (n / 10) ++ [digitChar (n % 10)]
termination_by n

def signedDecimal : Int → List Char
  | .ofNat n => decimal n
  | .negSucc n => '-' :: decimal (n + 1)

def text (n : Int) : String := String.ofList (signedDecimal n)

theorem digitsFrom_append (acc : Nat) (a b : List Char) :
    digitsFrom acc (a ++ b) = (digitsFrom acc a).bind fun n => digitsFrom n b := by
  induction a generalizing acc with
  | nil => simp [digitsFrom]
  | cons c cs ih =>
    simp only [List.cons_append, digitsFrom]
    cases digit? c with
    | none => rfl
    | some d => exact ih _

end Numeral
end CardBattle
