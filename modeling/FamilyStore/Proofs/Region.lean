import FamilyStore.Region
import Mathlib.Data.List.Range
import Mathlib.Data.List.Basic

/-!
When the items of a region lie in one piece.

`isPacked_iff` says that comparing the distances of an arrangement with the sizes of the blocks
within finds out whether the items lie directly one behind the other, and `contents_eq_flatten` that
reading one piece of the memory at once gives the items in order.
-/

namespace FamilyStore

/-! ## Arrangements -/

namespace Dimension

/-- The items lie directly one behind the other. -/
def Consecutive (itemSize : Nat) (dims : List Dimension) : Prop :=
  offsets dims = (List.range (count dims)).map fun i => ↑(i * itemSize)

theorem length_offsets (dims : List Dimension) : (offsets dims).length = count dims := by
  induction dims with
  | nil => rfl
  | cons d rest ih => simp [offsets, count, ih]

/-- Counting through blocks of one size is counting on. -/
theorem flatMap_range_map {α : Type} (f : Nat → α) (n c : Nat) :
    ((List.range n).flatMap fun i => (List.range c).map fun j => f (i * c + j)) =
      (List.range (n * c)).map f := by
  induction n with
  | zero => simp
  | succ n ih =>
    rw [List.range_succ, List.flatMap_append, ih, Nat.succ_mul, List.range_add, List.map_append,
      List.map_map, List.flatMap_singleton]
    rfl

variable {w : Nat} {d : Dimension} {rest dims : List Dimension}

/-- The places of a dimension that goes on where the block within ends. -/
theorem Consecutive.cons (hrest : Consecutive w rest)
    (hd : d.extent ≤ 1 ∨ d.stride = ↑(count rest * w)) : Consecutive w (d :: rest) := by
  have hplace : ∀ i ∈ List.range d.extent, ∀ j : Nat,
      (i : Int) * d.stride + ↑(j * w) = ↑((i * count rest + j) * w) := by
    intro i hi j
    have hstart : (i : Int) * d.stride = ↑(i * (count rest * w)) := by
      rcases hd with hone | hstride
      · have hzero : i = 0 := by
          have hlt := List.mem_range.1 hi
          omega
        rw [hzero, Nat.zero_mul]
        exact Int.zero_mul _
      · rw [hstride]
        exact (Int.natCast_mul _ _).symm
    rw [hstart, Nat.add_mul, Nat.mul_assoc]
    exact (Int.natCast_add _ _).symm
  unfold Consecutive at hrest ⊢
  rw [offsets, count, hrest, ← flatMap_range_map]
  refine List.flatMap_congr fun i hi => ?_
  rw [List.map_map]
  exact List.map_congr_left fun j _ => hplace i hi j

/-- If all items lie one behind the other, so do those of the first block, and the second block
starts where the first one ends. -/
theorem Consecutive.of_cons (hcount : 0 < count (d :: rest)) (h : Consecutive w (d :: rest)) :
    Consecutive w rest ∧ (d.extent ≤ 1 ∨ d.stride = ↑(count rest * w)) := by
  obtain ⟨extent, stride⟩ := d
  have hrest : 0 < count rest := Nat.pos_of_mul_pos_left hcount
  obtain ⟨n, rfl⟩ := Nat.exists_eq_succ_of_ne_zero (Nat.ne_of_gt (Nat.pos_of_mul_pos_right hcount))
  unfold Consecutive at h
  rw [offsets, count] at h
  dsimp only at h
  rw [List.range_succ_eq_map, List.flatMap_cons, Nat.succ_mul, Nat.add_comm (n * _), List.range_add,
    List.map_append] at h
  obtain ⟨hfirst, hnext⟩ := List.append_inj h (by simp [length_offsets])
  have hconsecutive : Consecutive w rest := by simpa [Consecutive] using hfirst
  refine ⟨hconsecutive, ?_⟩
  cases n with
  | zero => exact .inl (Nat.le_refl 1)
  | succ m =>
    -- the second block starts where the counting has come to after the first one
    have hzero : ∃ others, offsets rest = 0 :: others := by
      obtain ⟨k, hk⟩ := Nat.exists_eq_succ_of_ne_zero (Nat.ne_of_gt hrest)
      rw [hconsecutive, hk, List.range_succ_eq_map, List.map_cons, Nat.zero_mul]
      exact ⟨_, rfl⟩
    obtain ⟨others, hothers⟩ := hzero
    obtain ⟨k, hk⟩ : ∃ k, (m + 1) * count rest = k + 1 :=
      Nat.exists_eq_succ_of_ne_zero (Nat.ne_of_gt (Nat.mul_pos m.succ_pos hrest))
    rw [hk, List.range_succ_eq_map, List.range_succ_eq_map, List.map_cons, List.flatMap_cons,
      hothers, List.map_cons, List.map_cons, List.map_cons, List.cons_append] at hnext
    have hhead := (List.cons.inj hnext).1
    right
    simpa using hhead

/-- Comparing the strides finds out whether the items lie one behind the other. -/
theorem isPacked_iff (hcount : 0 < count dims) :
    isPacked w dims = true ↔ Consecutive w dims := by
  induction dims with
  | nil => simp [isPacked, Consecutive, offsets, count]
  | cons d rest ih =>
    have hrest : 0 < count rest := Nat.pos_of_mul_pos_left hcount
    rw [isPacked, Bool.and_eq_true, Bool.or_eq_true, decide_eq_true_iff, decide_eq_true_iff,
      ih hrest]
    constructor
    · rintro ⟨hd, hconsecutive⟩
      exact hconsecutive.cons hd
    · intro h
      exact (h.of_cons hcount).symm

end Dimension

/-! ## Regions -/

namespace Region

open Dimension

/-- The items lie directly one behind the other, or have no bytes. -/
def InOnePiece (r : Region) : Prop := r.size = 0 ∨ Consecutive r.itemSize r.dims

theorem isContiguous_iff (r : Region) : r.isContiguous = true ↔ r.InOnePiece := by
  unfold isContiguous InOnePiece
  rw [Bool.or_eq_true, decide_eq_true_iff]
  by_cases hsize : r.size = 0
  · exact iff_of_true (.inl hsize) (.inl hsize)
  · have hcount : 0 < Dimension.count r.dims := Nat.pos_of_ne_zero fun h => by
      refine hsize ?_
      rw [size, count, h, Nat.zero_mul]
    rw [isPacked_iff hcount]

theorem length_item {r : Region} {offset : Int} (h : offset ∈ offsets r.dims) :
    (r.item offset).length = r.itemSize := by
  obtain ⟨hlow, hhigh⟩ := r.inBounds offset h
  rw [item, List.length_take, List.length_drop]
  omega

/-- Pieces of one size, taken one behind the other. -/
theorem flatMap_range_take (bs : Bytes) (n w : Nat) :
    ((List.range n).flatMap fun i => (bs.drop (i * w)).take w) = bs.take (n * w) := by
  induction n with
  | zero => simp
  | succ n ih =>
    rw [List.range_succ, List.flatMap_append, ih, List.flatMap_singleton, Nat.succ_mul,
      List.take_add]

theorem length_flatten_items (r : Region) : r.items.flatten.length = r.size := by
  have hlengths : r.items.map List.length = (offsets r.dims).map fun _ => r.itemSize := by
    rw [items, List.map_map]
    exact List.map_congr_left fun _ ho => length_item ho
  rw [List.length_flatten, hlengths, List.map_const', List.sum_replicate_nat, length_offsets]
  rfl

/-- Items that lie in one piece cover the bytes from the first one on. -/
theorem flatten_items {r : Region} (h : r.InOnePiece) :
    r.items.flatten = r.fromStart.take r.size := by
  rcases h with hsize | hconsecutive
  · rw [hsize, List.take_zero]
    exact List.eq_nil_of_length_eq_zero (r.length_flatten_items.trans hsize)
  · have hitem : ∀ i : Nat, r.item ↑(i * r.itemSize) =
        (r.fromStart.drop (i * r.itemSize)).take r.itemSize := by
      intro i
      rw [item, fromStart, List.drop_drop, ← Int.natCast_add, Int.toNat_natCast]
    rw [items, hconsecutive, List.map_map, ← List.flatMap_def, size, ← flatMap_range_take]
    exact List.flatMap_congr fun i _ => hitem i

/-- The contents are the items, one after the other. -/
theorem contents_eq_flatten (r : Region) : r.contents = r.items.flatten := by
  unfold contents
  split
  · next h => exact (flatten_items (r.isContiguous_iff.1 h)).symm
  · rfl

theorem contents_of_inOnePiece {r : Region} (h : r.InOnePiece) :
    r.contents = r.fromStart.take r.size :=
  r.contents_eq_flatten.trans (flatten_items h)

theorem length_contents (r : Region) : r.contents.length = r.size := by
  rw [contents_eq_flatten, length_flatten_items]

/-! ## All bytes of a memory -/

theorem fitting_one (n : Nat) : fitting n 1 1 = n := by
  unfold fitting
  split <;> omega

theorem count_ofBytes (bs : Bytes) : (ofBytes bs).count = bs.length := by
  show fitting bs.length 1 1 * 1 = bs.length
  rw [fitting_one, Nat.mul_one]

theorem size_ofBytes (bs : Bytes) : (ofBytes bs).size = bs.length :=
  (Nat.mul_one _).trans (count_ofBytes bs)

theorem inOnePiece_ofBytes (bs : Bytes) : (ofBytes bs).InOnePiece := by
  rw [← isContiguous_iff]
  unfold isContiguous ofBytes row
  simp [isPacked, Dimension.count]

theorem contents_ofBytes (bs : Bytes) : (ofBytes bs).contents = bs := by
  rw [contents_of_inOnePiece (inOnePiece_ofBytes bs), size_ofBytes]
  exact List.take_length

end Region

end FamilyStore
