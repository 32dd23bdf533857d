import FamilyStore.Bytes
import FamilyStore.Text.Printable

/-!
Quoted text, as messages show it: between apostrophes, or between double quotes when the text has
an apostrophe and no double quote. The enclosing mark, the backslash and all characters that are
not printable are written as escapes. A byte string is shown the same way behind the letter `b`.
-/

namespace FamilyStore.Text

/-- The low `width` hexadecimal digits of `n`. -/
def hexDigits : Nat → Nat → List Char
  | 0, _ => []
  | width + 1, n => hexDigits width (n / 16) ++ [Bytes.hexDigit (n % 16)]

/-- The mark that encloses a text with or without apostrophes and double quotes. -/
def enclosingMark (hasApostrophe hasDouble : Bool) : Char :=
  if hasApostrophe && !hasDouble then '"' else '\''

/-- The escape of a character that is not printable: the shortest of two, four and eight
hexadecimal digits. -/
def hexEscape (n : Nat) : List Char :=
  if n < 256 then '\\' :: 'x' :: hexDigits 2 n
  else if n < 65536 then '\\' :: 'u' :: hexDigits 4 n
  else '\\' :: 'U' :: hexDigits 8 n

/-- A character between two marks. -/
def quoteChar (mark c : Char) : List Char :=
  if c = mark ∨ c = '\\' then ['\\', c]
  else if c = '\n' then ['\\', 'n']
  else if c = '\r' then ['\\', 'r']
  else if c = '\t' then ['\\', 't']
  else if isPrintable c then [c]
  else hexEscape c.toNat

/-- A text between marks. -/
def quoteChars (s : List Char) : List Char :=
  let mark := enclosingMark (s.contains '\'') (s.contains '"')
  mark :: s.flatMap (quoteChar mark) ++ [mark]

/-- A text between marks. -/
def quote (s : String) : String := String.ofList (quoteChars s.toList)

/-- A byte between two marks: as its ASCII character if that is printable, else as an escape. -/
def quoteByte (mark : Char) (b : UInt8) : List Char :=
  let c := Char.ofNat b.toNat
  if b < 128 then quoteChar mark c else '\\' :: 'x' :: hexDigits 2 b.toNat

/-- A byte string between marks, behind the letter `b`. -/
def quoteBytes (bs : Bytes) : String :=
  let mark := enclosingMark (bs.contains 39) (bs.contains 34)
  String.ofList ('b' :: mark :: bs.flatMap (quoteByte mark) ++ [mark])

end FamilyStore.Text
