import FamilyStore.Failure
import FamilyStore.Value.Basic

/-!
Slices: byte arguments as they are handed to the engine, a length and the place of the bytes.

A byte string and a writable buffer are handed over where they lie, so a later change of a writable
buffer shows in its slice. Any other buffer is copied. Nothing at all, and an empty buffer that is
no byte string, have no place.
-/

namespace FamilyStore

/-- Bytes as the engine receives them: what lies at an address, if there is one, and a length. -/
structure Span where
  address : Option Bytes
  length : Nat
  deriving DecidableEq, Repr

namespace Span

/-- The span without an address. -/
def null (length : Nat) : Span := ⟨none, length⟩

/-- The span of all of some bytes. -/
def ofBytes (bs : Bytes) : Span := ⟨some bs, bs.length⟩

/-- Whether there is no address. -/
def isNull (s : Span) : Bool := s.address.isNone

/-- The bytes of a span. Without an address there are none. -/
def read (s : Span) : Bytes :=
  match s.address with
  | none => []
  | some bs => bs.take s.length

end Span

/-- Where the bytes of a slice are. -/
inductive Storage where
  | absent
  /-- In the source itself. -/
  | shared
  /-- In a copy of the source. -/
  | copied (contents : Bytes)
  deriving DecidableEq, Repr

/-- A byte argument for the engine. -/
structure Slice where
  length : Nat
  storage : Storage
  deriving DecidableEq, Repr

namespace Slice

/-- The slice of nothing. -/
def absent : Slice := ⟨0, .absent⟩

/-- The slice of a buffer whose bytes lie next to each other. -/
def ofBuffer (b : Buffer) : Except Failure Slice :=
  if b.kind = .bytes then .ok ⟨b.size, .shared⟩
  else if b.size = 0 then .ok absent
  else if b.isWritable then
    if b.isContiguous then .ok ⟨b.size, .shared⟩ else .error (.argument .scatteredWritable)
  else
    if b.isContiguous then .ok ⟨b.size, .copied b.contents⟩
    else .error (.argument .scatteredReadOnly)

/-- The slice of an argument, which is a buffer or nothing. -/
def ofValue : Value → Except Failure Slice
  | .null => .ok absent
  | .buffer b => ofBuffer b
  | v => .error (.argument (.notBuffer v.typeName))

/-- What the engine receives while the source holds the bytes `source`. -/
def span (s : Slice) (source : Bytes) : Span :=
  match s.storage with
  | .absent => .null s.length
  | .shared => ⟨some source, s.length⟩
  | .copied contents => ⟨some contents, s.length⟩

/-- The wording of a slice. -/
def text (s : Slice) : String := "Slice(length=" ++ toString s.length ++ ")"

end Slice

/-- The bytes that a value covers; a value that is no buffer covers none. -/
def Value.contents : Value → Bytes
  | .buffer b => b.contents
  | _ => []

/-- A value after its first byte has been set. -/
def Value.setFirst (v : Value) (x : UInt8) : Except Failure Value :=
  match v with
  | .buffer b =>
    if b.isWritable then
      if 0 < b.size then .ok (.buffer (b.setFirst x))
      else .error (.argument (if b.kind = .mutable then .noFirstByte else .noFirstItem))
    else
      .error (.argument (if b.kind = .bytes then .unchangeable v.typeName else .readOnlyMemory))
  | v => .error (.argument (.unchangeable v.typeName))

/-- The number of bytes that an argument covers, when it is a buffer. -/
def Value.size : Value → Except Failure Nat
  | .buffer b => .ok b.size
  | v => .error (.argument (.notBuffer v.typeName))

end FamilyStore
