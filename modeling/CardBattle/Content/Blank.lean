import CardBattle.Content.Reader

/-!
# CardBattle.Content.Blank

What may stand between the parts of a data file: blanks, line comments from `//` to the end of
the line, and block comments from `/*` to their own `*/`, with other block comments inside.

* `Blank.skip?`: goes past all of them; `none` if a comment is not closed or a `/` begins none.
-/

namespace CardBattle
namespace Blank

/-- The characters with the Unicode property Pattern_White_Space. -/
def isBlank (c : Char) : Bool :=
  let n := c.toNat
  (9 ≤ n && n ≤ 13) || n == 0x20 || n == 0x85 || n == 0x200E || n == 0x200F || n == 0x2028 ||
    n == 0x2029

/-- Where a character stands: outside of comments, in a line comment, or in a block comment of
which `depth + 1` beginnings are open. -/
inductive Inside where
  | nothing
  | line
  | block (depth : Nat)

/-- Goes past what began where the text stands, and what follows it. -/
def skipIn? : Inside → Skipper
  | .nothing, [] => some []
  | .nothing, '/' :: '/' :: cs => skipIn? .line cs
  | .nothing, '/' :: '*' :: cs => skipIn? (.block 0) cs
  | .nothing, '/' :: _ => none
  | .nothing, c :: cs => if isBlank c then skipIn? .nothing cs else some (c :: cs)
  | .line, [] => some []
  | .line, c :: cs => skipIn? (if c = '\n' then .nothing else .line) cs
  | .block _, [] => none
  | .block depth, '/' :: '*' :: cs => skipIn? (.block (depth + 1)) cs
  | .block 0, '*' :: '/' :: cs => skipIn? .nothing cs
  | .block (depth + 1), '*' :: '/' :: cs => skipIn? (.block depth) cs
  | .block depth, _ :: cs => skipIn? (.block depth) cs

def skip? : Skipper := skipIn? .nothing

theorem skip?_nil : skip? [] = some [] := rfl

end Blank
end CardBattle
