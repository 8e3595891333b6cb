import CardBattle.Content.Reader

/-!
# CardBattle.Content.Sheet.Blank

What stands between the parts of a settings sheet: gaps of spaces and tabs, line ends, and
comments from `#` to the end of the line. A carriage return is a line end only before a line
feed, and no other control character but the tab may stand in a comment.

* `Sheet.skipGap`, `skipLines?`: past a gap, past whole lines.
* `Sheet.lineEnd?`: past the rest of a line that has no more parts.
-/

namespace CardBattle
namespace Sheet

def isGap (c : Char) : Bool := c = ' ' || c = '\t'

/-- The characters of comments and quoted texts. -/
def isPlain (c : Char) : Bool := c = '\t' || (0x20 ≤ c.toNat && c.toNat != 0x7F)

def skipGap (cs : List Char) : List Char := cs.dropWhile isGap

def newline? : Skipper
  | '\n' :: cs => some cs
  | '\r' :: '\n' :: cs => some cs
  | _ => none

/-- Past gaps, line ends and comments; the flag says that the text stands in a comment. -/
def skipLinesIn? : Bool → Skipper
  | _, [] => some []
  | _, '\r' :: '\n' :: cs => skipLinesIn? false cs
  | _, '\n' :: cs => skipLinesIn? false cs
  | true, c :: cs => if isPlain c then skipLinesIn? true cs else none
  | false, c :: cs =>
    if isGap c then skipLinesIn? false cs
    else if c = '#' then skipLinesIn? true cs
    else some (c :: cs)

def skipLines? : Skipper := skipLinesIn? false

def lineEnd? : Skipper := fun cs =>
  let rest :=
    match skipGap cs with
    | '#' :: cs => cs.dropWhile isPlain
    | cs => cs
  match rest with
  | [] => some []
  | cs => newline? cs

theorem isPlain_of_isGap {c : Char} (h : isGap c = true) : isPlain c = true := by
  simp only [isGap, Bool.or_eq_true, decide_eq_true_eq] at h
  rcases h with rfl | rfl <;> decide

end Sheet
end CardBattle
