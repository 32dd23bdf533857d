import FamilyStore.Value.Convert

/-!
Counters: unsigned numbers of 64 bits, stored in eight bytes with the least significant byte first.
Sums wrap around.
-/

namespace FamilyStore.Counter

/-- The number of bytes of a counter. -/
def width : Nat := 8

/-- The number of different counters. -/
def modulus : Nat := UInt64.size

/-- The bytes of an integer as a counter, reduced to 64 bits. -/
def encode (n : Int) : Bytes := Bytes.ofNatLittle width (n % modulus).toNat

/-- The counter in a byte string; any length other than eight fails. -/
def decode (bs : Bytes) : Except Failure Nat :=
  if bs.length = width then .ok bs.toNatLittle
  else .error (.argument (.counterLength bs.length))

/-- Adds a delta to a counter, an absent counter being zero. -/
def add (old : Option Bytes) (delta : Bytes) : Except Failure Bytes := do
  let base ←
    match old with
    | none => pure 0
    | some bs => decode bs
  let d ← decode delta
  return encode (base + d : Nat)

/-- The bytes of a value as a counter: integers only. -/
def encodeValue (v : Value) : Except Failure Bytes :=
  match v.index? with
  | some n => .ok (encode n)
  | none => .error (.argument (.unsupported "&" v.typeName "int"))

/-- The counter in a value with eight items. -/
def decodeValue (v : Value) : Except Failure Nat :=
  match v.count? with
  | none => .error (.argument (.noLength v.typeName))
  | some n =>
    if n = width then
      match v with
      | .str _ => .error (.argument (.notConvertible v.typeName))
      | v => v.toBytes.map Bytes.toNatLittle
    else .error (.argument (.counterLength n))

theorem encode_length (n : Int) : (encode n).length = width := Bytes.ofNatLittle_length _ _

/-- Reading a written counter gives the integer reduced to 64 bits. -/
theorem decode_encode (n : Int) : decode (encode n) = .ok (n % modulus).toNat := by
  unfold decode
  rw [if_pos (encode_length n)]
  unfold encode
  have hpos : (0 : Int) < modulus := by decide
  have hlt : (n % modulus).toNat < Nat.pow 256 width := by
    have := Int.emod_lt_of_pos n hpos
    have := Int.emod_nonneg n (show (modulus : Int) ≠ 0 by decide)
    have h : Nat.pow 256 width = modulus := by decide
    omega
  rw [Bytes.toNatLittle_ofNatLittle, Nat.mod_eq_of_lt hlt]

end FamilyStore.Counter
