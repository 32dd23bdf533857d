import FamilyStore.DataFuncs.Raised
import FamilyStore.Value.Convert

/-!
What comparisons and merges give back: a value, or an object of a class of the caller's own, which
brings its own operations.
-/

namespace FamilyStore

/-- An object of a class of the caller's own, as far as anything is asked of it. -/
structure Object where
  /-- That it is above zero, less that it is below zero, as an integer of the engine. -/
  difference : Attempt Int32 Int32
  /-- Its conversion to bytes. -/
  bytes : Attempt StrayStatus Bytes

/-- What a comparison or a merge gives back. -/
inductive Returned where
  | value (v : Value)
  | object (o : Object)

namespace Returned

/-- A byte string given back. -/
def bytes (bs : Bytes) : Returned := .value (.bytes bs)

/-- Minus one, zero or one as an integer of the engine. -/
def signCode (o : Ordering) : Int32 := Int32.ofInt (Value.signInt o)

/-- How what was given back lies to zero, as an integer of the engine. -/
def difference : Returned → Attempt Int32 Int32
  | value v => Attempt.ofExcept (v.sign.map signCode)
  | object o => o.difference

/-- The bytes of what was given back. -/
def toBytes : Returned → Attempt StrayStatus Bytes
  | value v => Attempt.ofExcept v.toBytes
  | object o => o.bytes

/-- The order that a sign tells is the order of its code to zero. -/
theorem compare_signCode (o : Ordering) : compare (signCode o).toInt 0 = o := by
  cases o <;> rfl

end Returned

end FamilyStore
