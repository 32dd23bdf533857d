import FamilyStore.Region

/-!
Buffers: the byte containers that callers hand in as keys, values and deltas.

A byte string has its bytes itself. A view looks at a region of the memory of another object, with
items of any size and any distance from one to the next; its contents are the bytes of the items, in
order.
-/

namespace FamilyStore

/-- The sort of a buffer. -/
inductive BufferKind where
  | bytes
  | mutable
  | view (isWritable : Bool)
  deriving DecidableEq, Repr

/-- A byte container. -/
inductive Buffer where
  /-- An immutable byte string. -/
  | bytes (bs : Bytes)
  /-- A mutable byte string. -/
  | mutable (bs : Bytes)
  /-- A view of the memory of another object. -/
  | view (isWritable : Bool) (region : Region)
  deriving DecidableEq, Repr

namespace Buffer

def kind : Buffer → BufferKind
  | bytes _ => .bytes
  | mutable _ => .mutable
  | view isWritable _ => .view isWritable

/-- The region that a buffer covers. -/
def region : Buffer → Region
  | bytes bs | mutable bs => .ofBytes bs
  | view _ r => r

/-- The bytes that a buffer covers, in order. -/
def contents : Buffer → Bytes
  | bytes bs | mutable bs => bs
  | view _ r => r.contents

/-- The number of bytes that a buffer covers. -/
def size : Buffer → Nat
  | bytes bs | mutable bs => bs.length
  | view _ r => r.size

/-- The number of items. -/
def count : Buffer → Nat
  | bytes bs | mutable bs => bs.length
  | view _ r => r.count

/-- The number of items that a buffer has as a sequence. The items of a view in several dimensions
are views in one dimension less. -/
def length : Buffer → Nat
  | bytes bs | mutable bs => bs.length
  | view _ r => r.length

/-- Whether the covered bytes lie next to each other. One item always does. -/
def isContiguous : Buffer → Bool
  | bytes _ | mutable _ => true
  | view _ r => r.isContiguous

/-- Whether the memory can be changed through the buffer. -/
def isWritable : Buffer → Bool
  | bytes _ => false
  | mutable _ => true
  | view isWritable _ => isWritable

/-- The buffer after its first byte has been set. -/
def setFirst (b : Buffer) (x : UInt8) : Buffer :=
  match b with
  | bytes bs => .bytes bs
  | mutable bs => .mutable (bs.set 0 x)
  | view isWritable r => .view isWritable (r.setFirst x)

/-- Whether two buffers are equal, seen from the first. A mutable byte string looks at the bytes of
the other one where these lie next to each other; a view, and whatever is compared with one,
compares item by item. -/
def equals : Buffer → Buffer → Bool
  | mutable bs, b =>
    if b.isContiguous then bs == b.contents else (Region.ofBytes bs).equals b.region
  | view _ r, b => r.equals b.region
  | bytes bs, view _ r => (Region.ofBytes bs).equals r
  | bytes bs, b => bs == b.contents

end Buffer

end FamilyStore
