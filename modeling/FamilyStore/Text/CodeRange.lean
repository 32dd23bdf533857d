/-!
Sets of characters given as ranges of code points, in ascending order and both ends included.
-/

namespace FamilyStore.Text

/-- Ranges of code points as pairs of a first and a last one, both included. -/
abbrev CodeRanges := List (Nat × Nat)

/-- Whether the code point of `c` lies in one of the ranges. -/
def CodeRanges.has (rs : CodeRanges) (c : Char) : Bool :=
  rs.any fun r => r.1 ≤ c.toNat && c.toNat ≤ r.2

end FamilyStore.Text
