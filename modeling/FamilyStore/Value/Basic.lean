import FamilyStore.Binary64.Basic
import FamilyStore.Buffer

/-!
Values of no fixed type: what callers put into a configuration, use as a key, or give back from a
callback. Each operation on them names the types that it accepts.
-/

namespace FamilyStore

/-- A value whose type is only known when it is looked at. -/
inductive Value where
  | null
  | bool (b : Bool)
  | int (n : Int)
  | float (x : Binary64)
  | str (s : String)
  | list (items : List Value)
  | buffer (b : Buffer)

/-- A positive integer. -/
abbrev Size := { n : Nat // 0 < n }

namespace Value

/-- An immutable byte string as a value. -/
def bytes (bs : Bytes) : Value := .buffer (.bytes bs)

/-- The name of the type of a value, as messages give it. -/
def typeName : Value → String
  | .null => "NoneType"
  | .bool _ => "bool"
  | .int _ => "int"
  | .float _ => "float"
  | .str _ => "str"
  | .list _ => "list"
  | .buffer (.bytes _) => "bytes"
  | .buffer (.mutable _) => "bytearray"
  | .buffer (.view _ _) => "memoryview"

/-- The integer that a value counts as: truth values are zero and one. -/
def index? : Value → Option Int
  | .bool b => some (if b then 1 else 0)
  | .int n => some n
  | _ => none

/-- The size that a value stands for: positive integers only, truth values excluded. -/
def size? : Value → Option Size
  | .int n => if h : 0 < n then some ⟨n.toNat, by omega⟩ else none
  | _ => none

/-- Whether a value counts as true. -/
def isTruthy : Value → Bool
  | .null => false
  | .bool b => b
  | .int n => n != 0
  | .float x => !x.isZero
  | .str s => s != ""
  | .list items => !items.isEmpty
  | .buffer b => b.length != 0

/-- The number of items of a value that has items. -/
def count? : Value → Option Nat
  | .str s => some s.length
  | .list items => some items.length
  | .buffer b => some b.length
  | _ => none

mutual

/-- Equality of values: numbers by value whatever their type, buffers by what they hold, and lists
item by item. -/
def equals : Value → Value → Bool
  | .null, .null => true
  | .bool a, .bool b => a == b
  | .bool a, .int n => (if a then 1 else 0) == n
  | .int n, .bool b => n == (if b then 1 else 0)
  | .int m, .int n => m == n
  | .float x, .float y => x.equals y
  | .float x, .int n => x.equalsInt n
  | .int n, .float x => x.equalsInt n
  | .float x, .bool b => x.equalsInt (if b then 1 else 0)
  | .bool b, .float x => x.equalsInt (if b then 1 else 0)
  | .str s, .str t => s == t
  | .list xs, .list ys => equalsAll xs ys
  | .buffer a, .buffer b => a.equals b
  | _, _ => false

/-- Equality of lists, item by item. -/
def equalsAll : List Value → List Value → Bool
  | [], [] => true
  | x :: xs, y :: ys => equals x y && equalsAll xs ys
  | _, _ => false

end

end Value

end FamilyStore
