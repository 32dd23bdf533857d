import FamilyStore.Text.Blank
import FamilyStore.Text.Digit

/-!
Decimal text of integers. Neither reading nor writing handles more than `digitLimit` digits.

Reading is generous: blanks around the number, a sign, decimal digits of any script, and single
underscores between digits. Writing is plain: a minus sign if needed and ASCII digits.
-/

namespace FamilyStore.Text

/-- The most digits that an integer may have in text. -/
def digitLimit : Nat := 4300

/-- Whether an integer has few enough digits to be written. -/
def isWritable (n : Int) : Bool := n.natAbs < Nat.pow 10 digitLimit

/-- The digits of a number, whatever their count. -/
def natDigits (n : Nat) : List Char := Nat.toDigits 10 n

/-- The decimal text of an integer, whatever its size. -/
def intDigits (n : Int) : List Char :=
  if n < 0 then '-' :: natDigits n.natAbs else natDigits n.natAbs

/-- The decimal text of an integer; `none` when it has too many digits. -/
def writeInt? (n : Int) : Option String :=
  if isWritable n then some (String.ofList (intDigits n)) else none

/-- A digit of any script, or `none` for an underscore: the alphabet of an integer's body. -/
def digitOrMark? (c : Char) : Option (Option Nat) :=
  if c = '_' then some none else (digitValue? c).map some

/-- Reads digits with single underscores between them, after `read` digits worth `value`.
`afterDigit` tells whether an underscore may follow. -/
def readDigits (read value : Nat) (afterDigit : Bool) : List Char → Option (Nat × Nat)
  | [] => if afterDigit then some (read, value) else none
  | c :: cs =>
    match digitOrMark? c with
    | none => none
    | some none => if afterDigit then readDigits read value false cs else none
    | some (some d) => readDigits (read + 1) (10 * value + d) true cs

/-- Blanks that may surround a number: the blanks but for the four ASCII separators. -/
def isNumberBlank (c : Char) : Bool :=
  isBlank c && !(28 ≤ c.toNat && c.toNat ≤ 31)

/-- Text without the number blanks at both ends. -/
def trimNumber (s : List Char) : List Char :=
  ((s.dropWhile isNumberBlank).reverse.dropWhile isNumberBlank).reverse

/-- Splits a sign off a text; `true` for a minus sign. -/
def splitSign : List Char → Bool × List Char
  | '-' :: cs => (true, cs)
  | '+' :: cs => (false, cs)
  | cs => (false, cs)

/-- Reads an integer; `none` when the text is no integer or has too many digits. -/
def readInt? (s : List Char) : Option Int :=
  let (negative, body) := splitSign (trimNumber s)
  match readDigits 0 0 false body with
  | some (count, n) =>
    if count ≤ digitLimit then some (if negative then -(n : Int) else n) else none
  | none => none

end FamilyStore.Text
