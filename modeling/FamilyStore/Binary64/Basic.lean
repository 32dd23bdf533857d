/-!
Binary floating point numbers of 64 bits, held exactly.

A finite number is a count of units, each worth a power of two. `Binary64.round` takes a quotient to
the nearest such number, a half to the even one.
-/

namespace FamilyStore

/-- A binary floating point number: `finite s u e` is `u · 2 ^ e`, negative when `s` is true. -/
inductive Binary64 where
  | nan
  | infinite (negative : Bool)
  | finite (negative : Bool) (units : Nat) (exponent : Int)
  deriving DecidableEq, Repr

namespace Binary64

/-- The least exponent of a finite number. -/
def minExponent : Int := -1074

/-- The largest exponent of a finite number. -/
def maxExponent : Int := 971

/-- Units from this count on have a larger exponent instead. -/
def unitsBound : Nat := 0x20000000000000

/-- `b ^ e` for a natural exponent, and one for a negative exponent. -/
def powerUp (b : Nat) (e : Int) : Nat := Nat.pow b e.toNat

/-- The quotient of two numbers, rounded to the nearest; a half goes to the even neighbour. -/
def roundQuotient (num den : Nat) : Nat :=
  let q := num / den
  let r := num % den
  if den < 2 * r || (2 * r == den && q % 2 == 1) then q + 1 else q

/-- The number of units worth `2 ^ e` that is nearest to a quotient. -/
def unitsOf (num den : Nat) (e : Int) : Nat :=
  roundQuotient (num * powerUp 2 (-e)) (den * powerUp 2 e)

/-- The exponent at which the quotient has close to `2 ^ 53` units, one too small at the most. -/
def exponentNear (num den : Nat) : Int :=
  max minExponent ((num.log2 : Int) - (den.log2 : Int) - 53)

/-- Counts units at exponent `e`, going on to the next exponent when there are too many of them. -/
def settle (num den : Nat) (negative : Bool) : Nat → Int → Binary64
  | 0, _ => infinite negative
  | fuel + 1, e =>
    if maxExponent < e then infinite negative
    else
      let u := unitsOf num den e
      if u < unitsBound then finite negative u e else settle num den negative fuel (e + 1)

/-- The number nearest to a quotient with a sign. -/
def round (negative : Bool) (num den : Nat) : Binary64 :=
  settle num den negative 4 (exponentNear num den)

/-- Whether a number is zero, of either sign. -/
def isZero : Binary64 → Bool
  | finite _ u _ => u == 0
  | _ => false

/-- How a number lies to zero; a number that is none lies nowhere. -/
def sign? : Binary64 → Option Ordering
  | nan => none
  | infinite negative => some (if negative then .lt else .gt)
  | finite negative u _ => some (if u == 0 then .eq else if negative then .lt else .gt)

/-- Whether a number is exactly the integer `n`. -/
def equalsInt : Binary64 → Int → Bool
  | finite negative u e, n =>
    u * powerUp 2 e == n.natAbs * powerUp 2 (-e) && (n == 0 || negative == decide (n < 0))
  | _, _ => false

/-- Numeric equality: both zeros are equal, and `nan` equals nothing. -/
def equals : Binary64 → Binary64 → Bool
  | nan, _ => false
  | x, y => x == y || (x.isZero && y.isZero)

/-- How an integer lies to a number. -/
def compareInt (n : Int) : Binary64 → Option Ordering
  | nan => none
  | infinite negative => some (if negative then .gt else .lt)
  | finite negative u e =>
    let scaled : Int := (u * powerUp 2 e : Nat)
    some (compare (n * (powerUp 2 (-e) : Nat)) (if negative then -scaled else scaled))

/-- The same number with the other sign. -/
def negate : Binary64 → Binary64
  | nan => nan
  | infinite negative => infinite (!negative)
  | finite negative u e => finite (!negative) u e

/-- A number times minus one, zero or one. -/
def timesSign (x : Binary64) : Ordering → Binary64
  | .lt => x.negate
  | .gt => x
  | .eq =>
    match x with
    | finite negative _ _ => finite negative 0 minExponent
    | _ => nan

end Binary64

end FamilyStore
