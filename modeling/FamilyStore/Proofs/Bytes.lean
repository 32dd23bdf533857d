import FamilyStore.Bytes
import Mathlib.Data.List.Basic

/-!
The order of byte strings, and the numbers that they stand for.

Byte strings are ordered as lists of bytes are: by the first byte that differs, and a proper
beginning comes first. A byte string and the number with its bytes determine each other, once the
length is known.
-/

namespace FamilyStore.Bytes

/-! ## The order -/

theorem order_lt_iff (a b : Bytes) : order a b = .lt ↔ a < b := by
  induction a generalizing b with
  | nil => cases b <;> simp [order]
  | cons x xs ih =>
    cases b with
    | nil => simp [order]
    | cons y ys =>
      rw [List.cons_lt_cons_iff]
      by_cases hlt : x < y
      · simp [order, hlt]
      · by_cases hgt : y < x
        · have hne : x ≠ y := fun h => by simp [h] at hgt
          simp [order, hlt, hgt, hne]
        · have heq : x = y := UInt8.le_antisymm (UInt8.not_lt.1 hgt) (UInt8.not_lt.1 hlt)
          simp [order, ih, heq]

theorem order_gt_iff (a b : Bytes) : order a b = .gt ↔ b < a := by
  rw [← order_lt_iff, ← order_swap a b]
  cases order a b <;> decide

/-- A byte string that does not come behind another one is at most that one. -/
theorem isLE_order_iff (a b : Bytes) : (order a b).isLE = true ↔ a ≤ b := by
  rw [Ordering.isLE_iff_ne_gt, order_gt_iff]
  exact List.not_lt

theorem isLE_order_trans {a b c : Bytes} (hab : (order a b).isLE = true)
    (hbc : (order b c).isLE = true) : (order a c).isLE = true :=
  (isLE_order_iff a c).2 (List.le_trans ((isLE_order_iff a b).1 hab) ((isLE_order_iff b c).1 hbc))

/-! ## Numbers -/

/-- Writing the number that was read gives the byte string back. -/
theorem ofNatLittle_toNatLittle (bs : Bytes) : ofNatLittle bs.length (toNatLittle bs) = bs := by
  induction bs with
  | nil => rfl
  | cons b bs ih =>
    have hlow : UInt8.ofNat (b.toNat + 256 * toNatLittle bs) = b := by
      apply UInt8.toNat_inj.1
      have hb := b.toNat_lt
      rw [UInt8.toNat_ofNat']
      omega
    have hhigh : (b.toNat + 256 * toNatLittle bs) / 256 = toNatLittle bs := by
      have hb := b.toNat_lt
      omega
    rw [List.length_cons, toNatLittle, ofNatLittle, hlow, hhigh, ih]

theorem toNatLittle_lt (bs : Bytes) : toNatLittle bs < Nat.pow 256 bs.length := by
  have h := toNatLittle_ofNatLittle bs.length (toNatLittle bs)
  rw [ofNatLittle_toNatLittle] at h
  rw [h]
  exact Nat.mod_lt _ (Nat.pow_pos (by decide))

end FamilyStore.Bytes
