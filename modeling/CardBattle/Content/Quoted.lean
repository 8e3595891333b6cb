import CardBattle.Content.Reader

/-!
# CardBattle.Content.Quoted

Quoted contents of data files. In a text, `\` begins an escape: a sign for one character, a byte
`\xHH`, or a character by its number in braces behind `\u`. Bytes from 128 on stand in groups that
are one character in UTF-8. A raw text has no escapes and ends at a quote with as many `#` behind
it as stand before its first quote.

* `Quoted.content?`, `rawContent?`: what stands in double quotes, behind its opening mark.
* `Quoted.letter?`, `byte?`: what stands in single quotes.
-/

namespace CardBattle
namespace Quoted

/-- Where the bytes of an escape may lead. -/
inductive Place where
  | text
  | letter
  | bytes
deriving DecidableEq

/-- The signs behind `\` that stand for one character. -/
def sign? (c : Char) : Option Char :=
  if c = 'n' then some '\n'
  else if c = 'r' then some '\r'
  else if c = 't' then some '\t'
  else if c = '0' then some (Char.ofNat 0)
  else if c = '\\' || c = '"' || c = '\'' then some c
  else none

/-- Two hexadecimal digits. -/
def byteDigits? : Reader Nat
  | a :: b :: cs => (hex? [a, b]).map fun n => (n, cs)
  | _ => none

/-- How many bytes follow the first byte of a character in UTF-8, with the bits that the first
byte gives and the least number that needs so many bytes. -/
def utf8Lead? (n : Nat) : Option (Nat × Nat × Nat) :=
  if 0xC0 ≤ n && n < 0xE0 then some (1, n - 0xC0, 0x80)
  else if 0xE0 ≤ n && n < 0xF0 then some (2, n - 0xE0, 0x800)
  else if 0xF0 ≤ n && n < 0xF8 then some (3, n - 0xF0, 0x10000)
  else none

/-- So many further bytes of a character, each of them an escape `\xHH`. -/
def utf8Rest? : Nat → Nat → Reader Nat
  | 0, acc, cs => some (acc, cs)
  | n + 1, acc, '\\' :: 'x' :: cs =>
    match byteDigits? cs with
    | none => none
    | some (b, cs) =>
      if 0x80 ≤ b && b < 0xC0 then utf8Rest? n (64 * acc + (b - 0x80)) cs else none
  | _, _, _ => none

/-- The character that a byte escape begins. -/
def byteEscape? (place : Place) (cs : List Char) : Option (Char × List Char) :=
  match byteDigits? cs with
  | none => none
  | some (n, cs) =>
    if n < 0x80 || place = .bytes then some (Char.ofNat n, cs)
    else if place = .letter then none
    else
      match utf8Lead? n with
      | none => none
      | some (count, bits, least) =>
        match utf8Rest? count bits cs with
        | none => none
        | some (m, cs) => if m < least then none else (char? m).map fun c => (c, cs)

/-- One to six hexadecimal digits in braces. -/
def numbered? : Reader Char
  | '\x7b' :: cs =>
    let digits := (cs.take 7).takeWhile fun c => c != '\x7d'
    match cs.drop digits.length with
    | [] => none
    | _ :: cs =>
      if digits.isEmpty || 6 < digits.length then none
      else ((hex? digits).bind char?).map fun c => (c, cs)
  | _ => none

/-- The character that an escape stands for, behind its `\`. -/
def escape? (place : Place) : Reader Char
  | [] => none
  | c :: cs =>
    if c = 'x' then byteEscape? place cs
    else if c = 'u' then numbered? cs
    else (sign? c).map fun c => (c, cs)

/-- At most so many characters, up to the closing quote. -/
def content? (place : Place) : Nat → Reader (List Char)
  | 0, _ => none
  | _ + 1, [] => none
  | n + 1, c :: cs =>
    if c = '"' then some ([], cs)
    else if c = '\\' then
      match escape? place cs with
      | none => none
      | some (c, cs) => (content? place n cs).map fun (content, cs) => (c :: content, cs)
    else (content? place n cs).map fun (content, cs) => (c :: content, cs)

/-- A raw content up to a closing mark. -/
def upTo? (mark : List Char) : Reader (List Char)
  | [] => none
  | c :: cs =>
    match Text.after? mark (c :: cs) with
    | some cs => some ([], cs)
    | none => (upTo? mark cs).map fun (content, cs) => (c :: content, cs)

/-- A raw content with its `#` and quotes. -/
def rawContent? : Reader (List Char) := fun cs =>
  let hashes := cs.takeWhile fun c => c = '#'
  match cs.drop hashes.length with
  | '"' :: cs => upTo? ('"' :: hashes) cs
  | _ => none

/-- One character, or an escape, and the quote that closes it. -/
def single? (place : Place) : Reader Char
  | [] => none
  | c :: cs =>
    match if c = '\\' then escape? place cs else some (c, cs) with
    | some (c, '\'' :: cs) => some (c, cs)
    | _ => none

def letter? : Reader Char := single? .letter

/-- A byte has no number in braces, and is an ASCII character unless it is escaped. -/
def byte? : Reader Char
  | '\\' :: 'u' :: _ => none
  | '\\' :: cs => single? .bytes ('\\' :: cs)
  | c :: cs => if c.toNat < 128 then single? .bytes (c :: cs) else none
  | [] => none

/-- A text without quotes and escapes reads back as itself. -/
theorem content?_plain (place : Place) (n : Nat) (s rest : List Char)
    (h : ∀ c ∈ s, c ≠ '"' ∧ c ≠ '\\') (hn : s.length < n) :
    content? place n (s ++ '"' :: rest) = some (s, rest) := by
  induction s generalizing n with
  | nil =>
    cases n with
    | zero => omega
    | succ n => simp [content?]
  | cons c cs ih =>
    cases n with
    | zero => omega
    | succ n =>
      have hc := h c (by simp)
      have hcs := ih n (fun d hd => h d (by simp [hd])) (by simpa using hn)
      simp [content?, hc.1, hc.2, hcs]

end Quoted
end CardBattle
