import CardBattle.Content.Sheet.Entry
import CardBattle.Content.Sheet.Quoted

/-!
# CardBattle.Content.Sheet.Document

Settings sheets as text: lines `keys = value` and headers `[keys]` or `[[keys]]`, with comments
behind `#`. Keys are bare or quoted, with points between them. Arrays and tables in braces may go
over several lines and stand in each other up to a depth.

* `Document.value?`: a value in so many levels.
* `Sheet.read?`: the entries of a whole text.
-/

namespace CardBattle
namespace Sheet
namespace Document

def inBareKey (c : Char) : Bool := c.isAlphanum || c = '_' || c = '-'

def key? (n : Nat) : Reader String := fun cs =>
  match cs with
  | '"' :: cs => (Quoted.escaped? n cs).map fun (s, cs) => (String.ofList s, cs)
  | '\'' :: cs => (Quoted.literal? cs).map fun (s, cs) => (String.ofList s, cs)
  | cs =>
    let name := cs.takeWhile inBareKey
    if name.isEmpty then none else some (String.ofList name, cs.dropWhile inBareKey)

/-- At most so many keys with points between them, and the gap behind the last. -/
def path? (n : Nat) : Nat → Reader (List String)
  | 0, _ => none
  | m + 1, cs =>
    match key? n cs with
    | none => none
    | some (key, cs) =>
      match skipGap cs with
      | '.' :: cs => (path? n m (skipGap cs)).map fun (keys, cs) => (key :: keys, cs)
      | cs => some ([key], cs)

/-- Keys, the sign `=` and what is assigned to them. -/
def assignment? (n : Nat) (value : Reader Assigned) : Reader (List String × Assigned) :=
  fun cs =>
    match path? n n cs with
    | some (keys, '=' :: cs) =>
      (value (skipGap cs)).map fun (v, cs) => ((keys, v), cs)
    | _ => none

/-- A value with a reader for those in its brackets, if it may have some. -/
def valueWith? (n : Nat) (inner : Option (Reader Assigned)) : Reader Assigned := fun cs =>
  match cs, inner with
  | '"' :: '"' :: '"' :: cs, _ => (Quoted.afterLines? '"' n cs).map fun cs => (.other, cs)
  | '\'' :: '\'' :: '\'' :: cs, _ => (Quoted.afterLines? '\'' n cs).map fun cs => (.other, cs)
  | '"' :: cs, _ => (Quoted.escaped? n cs).map fun (_, cs) => (.other, cs)
  | '\'' :: cs, _ => (Quoted.literal? cs).map fun (_, cs) => (.other, cs)
  | '[' :: cs, some inner =>
    (Reader.items? skipLines? inner ']' n cs).map fun (_, cs) => (.other, cs)
  | '\x7b' :: cs, some inner =>
    match Reader.items? skipLines? (assignment? n inner) '\x7d' n cs with
    | none => none
    | some (as, cs) => (Entries.putAll? as []).map fun _ => (.other, cs)
  | cs, _ => Scalar.read? cs

/-- A value in so many levels of brackets. -/
def value? (n : Nat) : Nat → Reader Assigned
  | 0 => valueWith? n none
  | d + 1 => valueWith? n (some (value? n d))

/-- The levels that a sheet may use. -/
def depth : Nat := 80

/-- A line that says something. -/
inductive Line where
  | assign (keys : List String) (v : Assigned)
  | header (series : Bool) (keys : List String)

/-- A header behind its opening bracket. -/
def header? (n : Nat) : Reader Line := fun cs =>
  match cs with
  | '[' :: cs =>
    match path? n n (skipGap cs) with
    | some (keys, ']' :: ']' :: cs) => some (.header true keys, cs)
    | _ => none
  | cs =>
    match path? n n (skipGap cs) with
    | some (keys, ']' :: cs) => some (.header false keys, cs)
    | _ => none

def line? (n : Nat) : Reader Line := fun cs =>
  match cs with
  | '[' :: cs => header? n cs
  | cs => (assignment? n (value? n depth) cs).map fun (a, cs) => (.assign a.1 a.2, cs)

/-- At most so many lines, up to the end of the text. -/
def lines? (n : Nat) : Nat → List Char → Option (List Line)
  | 0, _ => none
  | m + 1, cs =>
    match skipLines? cs with
    | none => none
    | some [] => some []
    | some (c :: cs) =>
      match line? n (c :: cs) with
      | none => none
      | some (line, cs) =>
        match lineEnd? cs with
        | none => none
        | some cs => (lines? n m cs).map (line :: ·)

/-- The assignments before the first header, and the headers with the assignments behind each. -/
def blocks : List Line →
    List (List String × Assigned) × List ((Bool × List String) × List (List String × Assigned))
  | [] => ([], [])
  | line :: lines =>
    let (top, rest) := blocks lines
    match line with
    | .assign keys v => ((keys, v) :: top, rest)
    | .header series keys => ([], ((series, keys), top) :: rest)

def entries? (lines : List Line) : Option Entries :=
  let (top, rest) := blocks lines
  match Entries.putAll? top [] with
  | none => none
  | some es =>
    rest.foldlM (fun es block =>
      Entries.change? block.1.1 (Entries.putAll? block.2) block.1.2 es) es

end Document

/-- The entries of a text, which may begin with a byte order mark. -/
def read? (cs : List Char) : Option Entries :=
  let cs :=
    match cs with
    | '\uFEFF' :: cs => cs
    | cs => cs
  let n := cs.length + 1
  (Document.lines? n n cs).bind Document.entries?

end Sheet
end CardBattle
