import CardBattle.Content.Blank
import CardBattle.Content.Quoted
import CardBattle.Content.Value
import CardBattle.Text.Identifier

/-!
# CardBattle.Content.Document

Data files as text: one value, with blanks and comments around its parts. Options are written
`None` and `Some(v)`, lists `[v, ...]`, records `(field: v, ...)` with or without a name before
them, tuples `(v, ...)` and maps with braces. Attributes `#![enable(...)]` before the value
choose the style. Values stand in each other up to a depth: an option takes one level, a list or
a record one and each of its parts another.

* `Document.value?`: a value in so many levels.
* `Document.read?`: the style and the value of a whole text.
-/

namespace CardBattle
namespace Document

/-- A word. Behind `r#` it may have points and signs in it. -/
structure Name where
  text : String
  raw : Bool

def inRawName (c : Char) : Bool := Text.inIdentifier c || c = '.' || c = '+' || c = '-'

/-- The marks before quoted contents, of which no word can be the beginning. -/
def beginsQuoted (cs : List Char) : Bool :=
  [ "b\"", "b'", "br#", "br\"", "r\"", "r#\"", "r##" ].any fun mark => mark.toList.isPrefixOf cs

/-- A word, if no point or sign follows it. -/
def plainName? : Reader Name
  | [] => none
  | c :: cs =>
    if !Text.startsIdentifier c then none
    else
      let name := c :: cs.takeWhile Text.inIdentifier
      match cs.dropWhile Text.inIdentifier with
      | [] => some ({ text := String.ofList name, raw := false }, [])
      | d :: cs =>
        if inRawName d then none else some ({ text := String.ofList name, raw := false }, d :: cs)

def name? : Reader Name := fun cs =>
  if beginsQuoted cs then none
  else
    match Text.after? "r#".toList cs with
    | none => plainName? cs
    | some cs =>
      let name := cs.takeWhile inRawName
      if name.isEmpty then none
      else some ({ text := String.ofList name, raw := true }, cs.dropWhile inRawName)

/-- The words that are numbers, or values of no table. -/
def wordValue (name : String) : Option Value :=
  if [ "inf", "inff32", "inff64", "NaN", "NaNf32", "NaNf64" ].any (· == name) then
    some (.number name.toList)
  else if name = "true" || name = "false" then some .foreign
  else none

/-- A part, a colon and another part. -/
def pair? {α β : Type} (first : Reader α) (second : Reader β) : Reader (α × β) := fun cs =>
  match first cs with
  | none => none
  | some (a, cs) =>
    match Blank.skip? cs with
    | some (':' :: cs) =>
      match Blank.skip? cs with
      | none => none
      | some cs => (second cs).map fun (b, cs) => ((a, b), cs)
    | _ => none

/-- A word and a colon begin the fields of a record; anything else begins a tuple. -/
def beginsField (cs : List Char) : Bool :=
  match name? cs with
  | none => false
  | some (_, cs) =>
    match Blank.skip? cs with
    | some (':' :: _) => true
    | _ => false

/-- A record or a tuple behind its opening bracket. -/
def group? (n : Nat) (part : Reader Value) (name : Option String) : Reader Value := fun cs =>
  match Blank.skip? cs with
  | none => none
  | some (')' :: cs) => some (.record name [], cs)
  | some cs =>
    if beginsField cs then
      (Reader.items? Blank.skip? (pair? name? part) ')' n cs).map fun (fs, cs) =>
        (.record name (fs.map fun f => (f.1.text, f.2)), cs)
    else (Reader.items? Blank.skip? part ')' n cs).map fun (_, cs) => (.foreign, cs)

/-- What `Some` holds, behind this word. -/
def option? (style : Style) (inner : Reader Value) : Reader Value := fun cs =>
  match Blank.skip? cs with
  | some ('(' :: cs) =>
    match Blank.skip? cs with
    | none => none
    | some cs =>
      match inner cs with
      | none => none
      | some (v, cs) =>
        match Blank.skip? cs with
        | some (')' :: cs) => some (.some v, cs)
        | some (',' :: cs) =>
          match Blank.skip? cs with
          | some (')' :: cs) => some (.some v, cs)
          | _ => none
        | _ => none
  | some cs => if style.bareOptions then (inner cs).map fun (v, cs) => (.some v, cs) else none
  | none => none

/-- A word as a value, or a record with this name. -/
def named? (style : Style) (n : Nat) (enter : Bool) (inner part : Reader Value) (name : Name) :
    Reader Value := fun cs =>
  if !name.raw && name.text = "Some" then if enter then option? style inner cs else none
  else if !name.raw && name.text = "None" then some (.none, cs)
  else
    match if name.raw then none else wordValue name.text with
    | some v => some (v, cs)
    | none =>
      match Blank.skip? cs with
      | some ('(' :: cs) => if enter then group? n part (some name.text) cs else none
      | some cs => some (.word name.text, cs)
      | none => none

/-- Quoted contents and numbers. -/
def plain? (n : Nat) : Reader Value := fun cs =>
  match cs with
  | '"' :: cs => (Quoted.content? .text n cs).map fun (s, cs) => (.text (String.ofList s), cs)
  | 'r' :: cs => (Quoted.rawContent? cs).map fun (s, cs) => (.text (String.ofList s), cs)
  | '\'' :: cs => (Quoted.letter? cs).map fun (_, cs) => (.foreign, cs)
  | 'b' :: '\'' :: cs => (Quoted.byte? cs).map fun (_, cs) => (.foreign, cs)
  | 'b' :: '"' :: cs => (Quoted.content? .bytes n cs).map fun (_, cs) => (.foreign, cs)
  | 'b' :: 'r' :: cs => (Quoted.rawContent? cs).map fun (_, cs) => (.foreign, cs)
  | c :: _ =>
    let digits := cs.takeWhile Number.inNumber
    if Number.startsNumber c && Number.isNumber digits then
      some (.number digits, cs.dropWhile Number.inNumber)
    else none
  | [] => none

/-- A value that may enter further levels, with a reader for what an option holds and one for
the parts of lists and records. -/
def valueWith? (style : Style) (n : Nat) (enter : Bool) (inner part : Reader Value) :
    Reader Value :=
  fun cs =>
    match name? cs with
    | some (name, cs) => named? style n enter inner part name cs
    | none =>
      match cs with
      | '(' :: ')' :: cs => some (.record none [], cs)
      | '(' :: cs => if enter then group? n part none cs else none
      | '[' :: cs =>
        if enter then
          (Reader.items? Blank.skip? part ']' n cs).map fun (vs, cs) => (.list vs, cs)
        else none
      | '\x7b' :: cs =>
        if enter then
          (Reader.items? Blank.skip? (pair? part part) '\x7d' n cs).map fun (_, cs) =>
            (.foreign, cs)
        else none
      | cs => plain? n cs

/-- A value in so many levels. No list and no content in it has `n` parts or more. -/
def value? (style : Style) (n : Nat) : Nat → Reader Value
  | 0 => valueWith? style n false Reader.refuse Reader.refuse
  | 1 => valueWith? style n true (value? style n 0) Reader.refuse
  | d + 2 => valueWith? style n true (value? style n (d + 1)) (value? style n d)

/-- The levels that a text may use. -/
def depth : Nat := 128

/-- The style with what a word enables; `none` if the word enables nothing. -/
def enable? (style : Style) (name : String) : Option Style :=
  if name = "implicit_some" then some { style with bareOptions := true }
  else if name = "explicit_struct_names" then some { style with namedRecords := true }
  else if name = "unwrap_newtypes" || name = "unwrap_variant_newtypes" then some style
  else none

/-- Goes past these marks and the blanks behind each. -/
def afterMarks? : List String → Skipper
  | [], cs => some cs
  | mark :: marks, cs =>
    match Text.after? mark.toList cs with
    | none => none
    | some cs =>
      match Blank.skip? cs with
      | none => none
      | some cs => afterMarks? marks cs

/-- One attribute. It enables something. -/
def attribute? (n : Nat) (style : Style) : Reader Style := fun cs =>
  match afterMarks? [ "#", "!", "[", "enable", "(" ] cs with
  | none => none
  | some cs =>
    match Reader.items? Blank.skip? name? ')' n cs with
    | none => none
    | some ([], _) => none
    | some (names, cs) =>
      match names.foldlM (fun style name => enable? style name.text) style, Blank.skip? cs with
      | some style, some cs => (afterMarks? [ "]" ] cs).map fun cs => (style, cs)
      | _, _ => none

/-- At most so many attributes. -/
def attributes? : Nat → Style → Reader Style
  | 0, _, _ => none
  | n + 1, style, cs =>
    match cs with
    | '#' :: _ =>
      match attribute? n style cs with
      | none => none
      | some (style, cs) => attributes? n style cs
    | cs => some (style, cs)

/-- The style and the value of a text. Its length bounds what is in it. -/
def read? (cs : List Char) : Option (Style × Value) :=
  let n := cs.length + 1
  match Blank.skip? cs with
  | none => none
  | some cs =>
    match attributes? n {} cs with
    | none => none
    | some (style, cs) =>
      match value? style n depth cs with
      | none => none
      | some (v, cs) =>
        match Blank.skip? cs with
        | some [] => some (style, v)
        | _ => none

end Document
end CardBattle
