/-!
Byte strings: the keys, values and deltas of the store.

The order is bytewise. The first byte that differs decides, and a proper beginning of a string
comes before the string itself.
-/

namespace FamilyStore

/-- A byte string. -/
abbrev Bytes := List UInt8

namespace Bytes

/-- Bytewise comparison; a proper beginning comes first. -/
def order : Bytes → Bytes → Ordering
  | [], [] => .eq
  | [], _ :: _ => .lt
  | _ :: _, [] => .gt
  | a :: as, b :: bs => if a < b then .lt else if b < a then .gt else order as bs

/-- The lower-case hexadecimal digit of a value below sixteen. -/
def hexDigit (n : Nat) : Char :=
  if n < 10 then Char.ofNat (48 + n) else Char.ofNat (87 + n)

/-- Two hexadecimal digits for one byte. -/
def hexPair (b : UInt8) : List Char :=
  [hexDigit (b.toNat / 16), hexDigit (b.toNat % 16)]

/-- The lower-case hexadecimal text of a byte string. -/
def toHex (bs : Bytes) : String :=
  String.ofList (bs.flatMap hexPair)

/-- The unsigned number whose least significant byte comes first. -/
def toNatLittle : Bytes → Nat
  | [] => 0
  | b :: bs => b.toNat + 256 * toNatLittle bs

/-- The `width` low bytes of a number, least significant first. -/
def ofNatLittle : Nat → Nat → Bytes
  | 0, _ => []
  | width + 1, n => UInt8.ofNat n :: ofNatLittle width (n / 256)

/-- ASCII capitals become small letters; every other byte stays. -/
def asciiLower (bs : Bytes) : Bytes :=
  bs.map fun b => if 65 ≤ b ∧ b ≤ 90 then b + 32 else b

/-- Whether `needle` occurs as a block of consecutive bytes. -/
def containsBlock (needle : Bytes) : Bytes → Bool
  | [] => needle.isEmpty
  | b :: bs => needle.isPrefixOf (b :: bs) || containsBlock needle bs

theorem order_eq_iff (a b : Bytes) : order a b = .eq ↔ a = b := by
  induction a generalizing b with
  | nil => cases b <;> simp [order]
  | cons x xs ih =>
    cases b with
    | nil => simp [order]
    | cons y ys =>
      by_cases hlt : x < y
      · have : x ≠ y := fun h => by simp [h] at hlt
        simp [order, hlt, this]
      · by_cases hgt : y < x
        · have : x ≠ y := fun h => by simp [h] at hgt
          simp [order, hlt, hgt, this]
        · have : x = y := UInt8.le_antisymm (UInt8.not_lt.1 hgt) (UInt8.not_lt.1 hlt)
          simp [order, ih, this]

theorem order_swap (a b : Bytes) : (order a b).swap = order b a := by
  induction a generalizing b with
  | nil => cases b <;> rfl
  | cons x xs ih =>
    cases b with
    | nil => rfl
    | cons y ys =>
      by_cases hlt : x < y
      · have : ¬ y < x := fun h => absurd (UInt8.lt_trans hlt h) (UInt8.lt_irrefl x)
        simp [order, hlt, this]
      · by_cases hgt : y < x <;> simp [order, hlt, hgt, ih]

theorem ofNatLittle_length (width n : Nat) : (ofNatLittle width n).length = width := by
  induction width generalizing n with
  | zero => rfl
  | succ w ih => simp [ofNatLittle, ih]

theorem toNatLittle_ofNatLittle (width n : Nat) :
    toNatLittle (ofNatLittle width n) = n % Nat.pow 256 width := by
  induction width generalizing n with
  | zero => simp [ofNatLittle, toNatLittle, Nat.mod_one]
  | succ w ih =>
    have h : (UInt8.ofNat n).toNat = n % 256 := UInt8.toNat_ofNat
    have hpow : Nat.pow 256 (w + 1) = 256 * Nat.pow 256 w := Nat.mul_comm _ _
    rw [ofNatLittle, toNatLittle, ih, h, hpow, Nat.mod_mul]

end Bytes

end FamilyStore
