import FamilyStore.Binary64.Basic
import FamilyStore.Text.Decimal

/-!
Text of floating point numbers.

A number is written with the fewest digits that read back as the same number, and of those with
the ones nearest to it. Reading takes digits with an optional point and an optional exponent to the
nearest number. It is as generous as the reading of integers: blanks around the number, digits of
any script, and single underscores between digits.
-/

namespace FamilyStore.Binary64

/-- A decimal number `count · 10 ^ scale`. -/
structure DecimalForm where
  count : Nat
  scale : Int
  deriving DecidableEq, Repr

/-- A finite number above zero between its neighbours: everything strictly between `low` and `high`
quarter units rounds to it, and so do the ends when `closed` is true. -/
structure RoundingInterval where
  units : Nat
  exponent : Int
  low : Nat
  high : Nat
  closed : Bool

/-- The decimals that round to `units · 2 ^ exponent`. The gap below a power of two is half as
wide as the gap above it. -/
def interval (units : Nat) (exponent : Int) : RoundingInterval where
  units := units
  exponent := exponent
  low := 4 * units - (if 2 * units = unitsBound ∧ minExponent < exponent then 1 else 2)
  high := 4 * units + 2
  closed := units % 2 == 0

/-- Whether `count · 10 ^ scale` rounds to the number of the interval. -/
def RoundingInterval.has (r : RoundingInterval) (d : DecimalForm) : Bool :=
  let decimal := 4 * d.count * (powerUp 10 d.scale * powerUp 2 (-r.exponent))
  let unit := powerUp 2 r.exponent * powerUp 10 (-d.scale)
  if r.closed then r.low * unit ≤ decimal && decimal ≤ r.high * unit
  else r.low * unit < decimal && decimal < r.high * unit

/-- The decimal of a given scale that rounds to the number of the interval and is nearest to it:
one of the two neighbours of the number among the multiples of `10 ^ scale`. -/
def RoundingInterval.atScale? (r : RoundingInterval) (scale : Int) : Option DecimalForm :=
  let num := r.units * powerUp 2 r.exponent * powerUp 10 (-scale)
  let den := powerUp 10 scale * powerUp 2 (-r.exponent)
  let nearest : DecimalForm := ⟨roundQuotient num den, scale⟩
  let below : DecimalForm := ⟨num / den, scale⟩
  let above : DecimalForm := ⟨num / den + 1, scale⟩
  [nearest, below, above].find? r.has

/-- The decimal of the largest scale that rounds to the number, going down from `scale`. -/
def RoundingInterval.shortest (r : RoundingInterval) : Nat → Int → DecimalForm
  | 0, _ => ⟨0, 0⟩
  | fuel + 1, scale =>
    match r.atScale? scale with
    | some d => d
    | none => r.shortest fuel (scale - 1)

/-- The shortest decimal that reads back as `units · 2 ^ exponent`. -/
def shortest (units : Nat) (exponent : Int) : DecimalForm :=
  if units = 0 then ⟨0, 0⟩ else (interval units exponent).shortest 650 309

/-- The exponent of ten behind the mark `e`: a sign and at least two digits. -/
def exponentText (e : Int) : List Char :=
  let digits := Nat.toDigits 10 e.natAbs
  (if e < 0 then '-' else '+') :: (if digits.length < 2 then '0' :: digits else digits)

/-- Digits with a point after the first `point` of them. Between `10 ^ -4` and `10 ^ 16` the number
is written out, outside with an exponent. -/
def placePoint (digits : List Char) (point : Int) : List Char :=
  if -4 < point ∧ point ≤ 16 then
    if point ≤ 0 then '0' :: '.' :: List.replicate (-point).toNat '0' ++ digits
    else if digits.length ≤ point.toNat then
      digits ++ List.replicate (point.toNat - digits.length) '0' ++ ['.', '0']
    else digits.take point.toNat ++ '.' :: digits.drop point.toNat
  else
    let fraction := digits.drop 1
    digits.take 1 ++ (if fraction.isEmpty then [] else '.' :: fraction)
      ++ 'e' :: exponentText (point - 1)

/-- The text of a number. -/
def text : Binary64 → String
  | nan => "nan"
  | infinite negative => if negative then "-inf" else "inf"
  | finite negative u e =>
    let d := shortest u e
    let digits := Nat.toDigits 10 d.count
    let body := if u = 0 then ['0', '.', '0'] else placePoint digits (digits.length + d.scale)
    String.ofList (if negative then '-' :: body else body)

/-- The number nearest to `count · 10 ^ scale`. Decimals far outside the range of finite numbers
need no exact arithmetic. -/
def ofDecimal (negative : Bool) (count : Nat) (scale : Int) : Binary64 :=
  if count = 0 then finite negative 0 minExponent
  else
    let magnitude := (Nat.toDigits 10 count).length + scale
    if 310 < magnitude then infinite negative
    else if magnitude < -330 then finite negative 0 minExponent
    else round negative (count * powerUp 10 scale) (powerUp 10 (-scale))

/-- The value of a list of decimal digits. -/
def digitsValue (ds : List Char) : Nat :=
  ds.foldl (fun n c => 10 * n + (c.toNat - 48)) 0

/-- Reads a signed exponent. -/
def readExponent? (s : List Char) : Option Int :=
  let value (ds : List Char) : Option Int :=
    if !ds.isEmpty && ds.all Char.isDigit then some (digitsValue ds) else none
  match s with
  | '-' :: ds => (value ds).map fun n => -n
  | '+' :: ds => value ds
  | ds => value ds

/-- Reads a decimal number without sign. -/
def readUnsigned? (negative : Bool) (s : List Char) : Option Binary64 :=
  let whole := s.takeWhile Char.isDigit
  let afterWhole := s.dropWhile Char.isDigit
  let (fraction, rest) :=
    match afterWhole with
    | '.' :: r => (r.takeWhile Char.isDigit, r.dropWhile Char.isDigit)
    | r => ([], r)
  let exponent? : Option Int :=
    match rest with
    | [] => some 0
    | c :: r => if c = 'e' ∨ c = 'E' then readExponent? r else none
  let digits := whole ++ fraction
  if digits.isEmpty then none
  else exponent?.map fun e => ofDecimal negative (digitsValue digits) (e - fraction.length)

/-- The ASCII digit for a digit of any script; all other characters stay as they are. -/
def asciiDigit (c : Char) : Char :=
  match Text.digitValue? c with
  | some d => Char.ofNat (48 + d)
  | none => c

/-- Text without its underscores, each of which must stand between two digits. -/
def dropMarks? (afterDigit : Bool) : List Char → Option (List Char)
  | [] => some []
  | ['_'] => none
  | '_' :: c :: cs =>
    if afterDigit && c.isDigit then (dropMarks? true cs).map (c :: ·) else none
  | c :: cs => (dropMarks? c.isDigit cs).map (c :: ·)

/-- Reads a number: a decimal, `inf`, `infinity` or `nan`, with an optional sign. -/
def ofText? (s : String) : Option Binary64 :=
  let (negative, body) := Text.splitSign ((Text.trimNumber s.toList).map asciiDigit)
  match String.ofList (body.map Char.toLower) with
  | "inf" | "infinity" => some (infinite negative)
  | "nan" => some nan
  | _ => (dropMarks? false body).bind (readUnsigned? negative)

end FamilyStore.Binary64
