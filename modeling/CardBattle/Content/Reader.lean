import CardBattle.Numeral

/-!
# CardBattle.Content.Reader

Reading at the front of a text. A reader gives what it read and the text behind it, or `none` if
the text does not begin with what it reads.

* `Reader.items?`: items with commas between them, up to a closing character.
* `hex?`, `char?`: hexadecimal digits, and the character with a number.
-/

namespace CardBattle

abbrev Reader (α : Type) := List Char → Option (α × List Char)

/-- Goes past blanks and comments; `none` if one of them is malformed. -/
abbrev Skipper := List Char → Option (List Char)

namespace Reader

def refuse {α : Type} : Reader α := fun _ => none

/-- At most so many items, up to the closing character. Blanks may stand before and behind an
item, and a comma may follow the last one. -/
def items? {α : Type} (skip : Skipper) (item : Reader α) (close : Char) : Nat → Reader (List α)
  | 0, _ => none
  | n + 1, cs =>
    match skip cs with
    | none => none
    | some [] => none
    | some (c :: cs) =>
      if c = close then some ([], cs)
      else
        match item (c :: cs) with
        | none => none
        | some (a, cs) =>
          match skip cs with
          | none => none
          | some [] => none
          | some (d :: cs) =>
            if d = close then some ([a], cs)
            else if d = ',' then
              (items? skip item close n cs).map fun (as, cs) => (a :: as, cs)
            else none

end Reader

def hexDigit? (c : Char) : Option Nat :=
  let n := c.toNat
  if 48 ≤ n && n ≤ 57 then some (n - 48)
  else if 97 ≤ n && n ≤ 102 then some (n - 87)
  else if 65 ≤ n && n ≤ 70 then some (n - 55)
  else none

/-- The number that digits of a base write, behind digits of value `acc`. -/
def digitsInBase? (base : Nat) (acc : Nat) : List Char → Option Nat
  | [] => some acc
  | c :: cs =>
    match hexDigit? c with
    | none => none
    | some d => if d < base then digitsInBase? base (base * acc + d) cs else none

def hex? (cs : List Char) : Option Nat := digitsInBase? 16 0 cs

/-- The character with a number, if there is one. -/
def char? (n : Nat) : Option Char := if n.isValidChar then some (Char.ofNat n) else none

theorem Reader.items?_close {α : Type} (item : Reader α) (close : Char) (n : Nat)
    (cs : List Char) : Reader.items? some item close (n + 1) (close :: cs) = some ([], cs) := by
  simp [Reader.items?]

end CardBattle
