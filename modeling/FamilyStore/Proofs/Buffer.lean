import FamilyStore.Buffer
import FamilyStore.Proofs.Region

/-!
Buffers and the items that they cover.

Whatever a buffer is, its contents are the bytes of its items, one after the other. A buffer lies in
one piece if its items lie directly one behind the other, or have no bytes; a byte string always
does, and so does a view of at most one item.
-/

namespace FamilyStore.Buffer

/-- The items of a buffer lie directly one behind the other, or have no bytes. -/
def InOnePiece (b : Buffer) : Prop := b.region.InOnePiece

theorem contents_region (b : Buffer) : b.region.contents = b.contents := by
  cases b with
  | bytes bs | mutable bs => exact Region.contents_ofBytes bs
  | view => rfl

theorem size_region (b : Buffer) : b.region.size = b.size := by
  cases b with
  | bytes bs | mutable bs => exact Region.size_ofBytes bs
  | view => rfl

/-- The contents are the items, one after the other. -/
theorem contents_eq_flatten (b : Buffer) : b.contents = b.region.items.flatten :=
  b.contents_region.symm.trans b.region.contents_eq_flatten

theorem length_contents (b : Buffer) : b.contents.length = b.size := by
  rw [← contents_region, Region.length_contents, size_region]

theorem contents_eq_nil_iff {b : Buffer} : b.contents = [] ↔ b.size = 0 := by
  rw [← length_contents, List.length_eq_zero_iff]

theorem isContiguous_iff (b : Buffer) : b.isContiguous = true ↔ b.InOnePiece := by
  cases b with
  | bytes bs | mutable bs => exact iff_of_true rfl (Region.inOnePiece_ofBytes bs)
  | view _ r => exact r.isContiguous_iff

theorem isContiguous_eq_false_iff (b : Buffer) : b.isContiguous = false ↔ ¬ b.InOnePiece := by
  rw [← isContiguous_iff, Bool.not_eq_true]

theorem inOnePiece_of_size_zero {b : Buffer} (h : b.size = 0) : b.InOnePiece :=
  .inl (b.size_region.trans h)

/-- Only a view lies in pieces. -/
theorem kind_ne_of_not_inOnePiece {b : Buffer} (h : ¬ b.InOnePiece) : b.kind ≠ .bytes := by
  cases b with
  | bytes bs => exact absurd (Region.inOnePiece_ofBytes bs) h
  | mutable | view => exact nofun

end FamilyStore.Buffer
