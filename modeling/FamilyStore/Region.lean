import FamilyStore.Bytes

/-!
Regions: items of one size that are arranged in a memory in any number of dimensions.

The arrangement says for each dimension how many places it has and how far they lie apart, which may
be backwards. Two regions are equal if they have the same shape and the same numbers as items,
however long these are.
-/

namespace FamilyStore

/-! ## Arrangements -/

/-- One dimension of an arrangement. -/
structure Dimension where
  /-- The number of places. -/
  extent : Nat
  /-- How many bytes it is from one place to the next. -/
  stride : Int
  deriving DecidableEq, Repr

namespace Dimension

/-- The number of items in an arrangement. -/
def count : List Dimension → Nat
  | [] => 1
  | d :: rest => d.extent * count rest

/-- How far the items of an arrangement lie from its first place, in their order: the last dimension
is gone through first. -/
def offsets : List Dimension → List Int
  | [] => [0]
  | d :: rest => (List.range d.extent).flatMap fun i : Nat => (offsets rest).map (↑i * d.stride + ·)

/-- Whether every dimension goes on where the block of the dimensions within ends. It does not
matter how far apart the places are if there is at most one. -/
def isPacked (itemSize : Nat) : List Dimension → Bool
  | [] => true
  | d :: rest =>
    (d.extent ≤ 1 || d.stride = ↑(count rest * itemSize)) && isPacked itemSize rest

/-- Whether two arrangements have the same shape. Within a dimension without places there is nothing
to compare. -/
def sameShape : List Dimension → List Dimension → Bool
  | [], [] => true
  | d :: rest, d' :: rest' =>
    d.extent = d'.extent &&
      if d.extent = 0 then rest.length = rest'.length else sameShape rest rest'
  | _, _ => false

end Dimension

/-! ## Regions -/

/-- A region: where the items of an arrangement lie in a memory, all of them within it. -/
structure Region where
  memory : Bytes
  /-- The place of the first item. -/
  start : Nat
  itemSize : Nat
  dims : List Dimension
  inBounds : ∀ o ∈ Dimension.offsets dims,
    0 ≤ start + o ∧ start + o + itemSize ≤ memory.length
  deriving DecidableEq, Repr

namespace Region

open Dimension

/-- The number of items. -/
def count (r : Region) : Nat := Dimension.count r.dims

/-- The number of bytes that the items cover. -/
def size (r : Region) : Nat := r.count * r.itemSize

/-- The number of places in the first dimension. -/
def length (r : Region) : Nat :=
  match r.dims with
  | [] => 1
  | d :: _ => d.extent

/-- The bytes of the item at an offset. -/
def item (r : Region) (offset : Int) : Bytes :=
  (r.memory.drop (r.start + offset).toNat).take r.itemSize

/-- The items, in order. -/
def items (r : Region) : List Bytes := (offsets r.dims).map r.item

/-- What lies in the memory from the first item on. -/
def fromStart (r : Region) : Bytes := r.memory.drop r.start

/-- Whether the region covers one piece of its memory, as its strides tell. -/
def isContiguous (r : Region) : Bool := r.size = 0 || isPacked r.itemSize r.dims

/-- The bytes that the items cover, in order. One piece of the memory is read at once. -/
def contents (r : Region) : Bytes :=
  if r.isContiguous then r.fromStart.take r.size else r.items.flatten

/-- Whether two regions have the same shape and the same unsigned numbers as items. -/
def equals (r s : Region) : Bool :=
  sameShape r.dims s.dims && r.items.map Bytes.toNatLittle == s.items.map Bytes.toNatLittle

/-- The region after its memory has changed. -/
def withMemory (r : Region) (memory : Bytes) (h : memory.length = r.memory.length) : Region where
  memory := memory
  start := r.start
  itemSize := r.itemSize
  dims := r.dims
  inBounds := h ▸ r.inBounds

/-- The region after the byte at the place of the first item has been set. -/
def setFirst (r : Region) (x : UInt8) : Region :=
  r.withMemory (r.memory.set r.start x) List.length_set

/-! ## Items in a row -/

/-- How many items of a size fit into so many bytes, when they begin `stride` bytes apart. -/
def fitting (bytes itemSize stride : Nat) : Nat :=
  if bytes < itemSize then 0 else (bytes - itemSize) / stride + 1

theorem row_inBounds {bytes itemSize stride : Nat} :
    ∀ o ∈ Dimension.offsets [⟨fitting bytes itemSize stride, stride⟩],
      0 ≤ ((0 : Nat) : Int) + o ∧ ((0 : Nat) : Int) + o + itemSize ≤ bytes := by
  intro o ho
  obtain ⟨i, hi, rfl⟩ : ∃ i < fitting bytes itemSize stride, o = ↑i * ↑stride := by
    simpa [Dimension.offsets] using ho
  rw [fitting] at hi
  split at hi
  · exact absurd hi (Nat.not_lt_zero i)
  · next hfits =>
    have hplace : i * stride ≤ bytes - itemSize :=
      Nat.le_trans (Nat.mul_le_mul_right stride (Nat.le_of_lt_succ hi)) (Nat.div_mul_le_self _ _)
    rw [← Int.natCast_mul]
    omega

/-- The items of a memory from its beginning on, as many as fit. -/
def row (memory : Bytes) (itemSize stride : Nat) : Region where
  memory := memory
  start := 0
  itemSize := itemSize
  dims := [⟨fitting memory.length itemSize stride, stride⟩]
  inBounds := row_inBounds

/-- All bytes of a memory. -/
def ofBytes (bs : Bytes) : Region := row bs 1 1

end Region

end FamilyStore
