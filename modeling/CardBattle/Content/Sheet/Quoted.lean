import CardBattle.Content.Sheet.Blank

/-!
# CardBattle.Content.Sheet.Quoted

Quoted texts of settings sheets. Double quotes allow escapes, single quotes do not. A text in
three quotes may go over several lines and have up to two quotes before its closing three; a `\`
at the end of a line joins it with the next part.

* `Quoted.escaped?`, `literal?`: texts on one line, behind their opening quote.
* `Quoted.afterLines?`: past a text in three quotes, behind these.
-/

namespace CardBattle
namespace Sheet
namespace Quoted

/-- The signs behind `\` that stand for one character. -/
def sign? (c : Char) : Option Char :=
  if c = 'b' then some (Char.ofNat 8)
  else if c = 't' then some '\t'
  else if c = 'n' then some '\n'
  else if c = 'f' then some (Char.ofNat 12)
  else if c = 'r' then some '\r'
  else if c = 'e' then some (Char.ofNat 27)
  else if c = '"' || c = '\\' then some c
  else none

/-- A character by its number, of so many hexadecimal digits. -/
def numbered? (count : Nat) : Reader Char := fun cs =>
  let digits := cs.take count
  if digits.length < count then none
  else ((hex? digits).bind char?).map fun c => (c, cs.drop count)

/-- The character that an escape stands for, behind its `\`. -/
def escape? : Reader Char
  | [] => none
  | c :: cs =>
    if c = 'x' then numbered? 2 cs
    else if c = 'u' then numbered? 4 cs
    else if c = 'U' then numbered? 8 cs
    else (sign? c).map fun c => (c, cs)

/-- At most so many characters, up to the closing quote. -/
def escaped? : Nat → Reader (List Char)
  | 0, _ => none
  | _ + 1, [] => none
  | n + 1, c :: cs =>
    if c = '"' then some ([], cs)
    else if c = '\\' then
      match escape? cs with
      | none => none
      | some (c, cs) => (escaped? n cs).map fun (content, cs) => (c :: content, cs)
    else if isPlain c then (escaped? n cs).map fun (content, cs) => (c :: content, cs)
    else none

def literal? : Reader (List Char)
  | [] => none
  | c :: cs =>
    if c = '\'' then some ([], cs)
    else if isPlain c then (literal? cs).map fun (content, cs) => (c :: content, cs)
    else none

/-- Past up to `n` quotes. -/
def dropQuotes (quote : Char) : Nat → List Char → List Char
  | 0, cs => cs
  | _ + 1, [] => []
  | n + 1, c :: cs => if c = quote then dropQuotes quote n cs else c :: cs

/-- Past gaps and line ends. -/
def dropLines : List Char → List Char
  | [] => []
  | '\r' :: '\n' :: cs => dropLines cs
  | c :: cs => if isGap c || c = '\n' then dropLines cs else c :: cs

/-- Past gaps and line ends, of which the first line end is needed. -/
def joined? (cs : List Char) : Option (List Char) := (newline? (skipGap cs)).map dropLines

/-- Past at most so many parts of a text in three quotes. -/
def afterLines? (quote : Char) : Nat → Skipper
  | 0, _ => none
  | _ + 1, [] => none
  | n + 1, c :: cs =>
    if [quote, quote, quote].isPrefixOf (c :: cs) then
      some (dropQuotes quote 2 (cs.drop 2))
    else if c = '\\' && quote = '"' then
      match escape? cs with
      | some (_, cs) => afterLines? quote n cs
      | none =>
        match joined? cs with
        | none => none
        | some cs => afterLines? quote n cs
    else if isPlain c then afterLines? quote n cs
    else
      match newline? (c :: cs) with
      | none => none
      | some cs => afterLines? quote n cs

end Quoted
end Sheet
end CardBattle
