import FamilyStore.Failure
import FamilyStore.Value.Text

/-!
Conversions of values: to bytes, to an order relative to zero, to multiples, and to answers.
-/

namespace FamilyStore.Value

/-- The largest count of bytes that has an address. -/
def indexLimit : Int := 0x8000000000000000

/-- Counts from here on leave no addresses for the bookkeeping of a byte string. -/
def byteStringLimit : Int := indexLimit - 33

/-- Counts from here on find no memory. -/
def memoryLimit : Int := 0x10000000000

/-- The byte that an item of a list stands for. -/
def itemByte (v : Value) : Except Failure UInt8 :=
  match v.index? with
  | none => .error (.argument (.notInteger v.typeName))
  | some n =>
    if 0 ≤ n ∧ n < 256 then .ok (UInt8.ofNat n.toNat) else .error (.argument .byteOutOfRange)

/-- So many zero bytes. -/
def zeros (n : Int) : Except Failure Bytes :=
  if indexLimit ≤ n ∨ n < -indexLimit then .error (.argument .tooLargeForIndex)
  else if n < 0 then .error (.argument .negativeCount)
  else if byteStringLimit ≤ n then .error (.argument .byteStringTooLarge)
  else if memoryLimit ≤ n then .error (.argument .outOfMemory)
  else .ok (List.replicate n.toNat 0)

/-- The bytes of a value: those of a buffer, the items of a list, or as many zeros as an integer
says. -/
def toBytes : Value → Except Failure Bytes
  | .buffer b => .ok b.contents
  | .list items => items.mapM itemByte
  | .bool b => zeros (if b then 1 else 0)
  | .int n => zeros n
  | .str _ => .error (.argument .textWithoutEncoding)
  | v => .error (.argument (.notConvertible v.typeName))

/-- How a value lies to zero. A number that is none is neither above nor below, so it counts as
equal. -/
def sign (v : Value) : Except Failure Ordering :=
  match v with
  | .bool b => .ok (if b then .gt else .eq)
  | .int n => .ok (compare n 0)
  | .float x => .ok (x.sign?.getD .eq)
  | v => .error (.argument (.unorderable v.typeName "int"))

/-- Minus one, zero or one. -/
def signInt : Ordering → Int
  | .lt => -1
  | .eq => 0
  | .gt => 1

/-- A sequence repeated once for a sign above zero, and not at all otherwise. -/
def repeated {α : Type} (xs : List α) : Ordering → List α
  | .gt => xs
  | _ => []

/-- A value times minus one, zero or one. -/
def timesSign (v : Value) (o : Ordering) : Except Failure Value :=
  match v with
  | .bool b => .ok (.int (if b then signInt o else 0))
  | .int n => .ok (.int (n * signInt o))
  | .float x => .ok (.float (x.timesSign o))
  | .str s => .ok (.str (String.ofList (repeated s.toList o)))
  | .list items => .ok (.list (repeated items o))
  | .buffer (.bytes bs) => .ok (.buffer (.bytes (repeated bs o)))
  | .buffer (.mutable bs) => .ok (.buffer (.mutable (repeated bs o)))
  | v => .error (.argument (.unsupported "*" v.typeName "int"))

/-- A value as an answer, which must be writable. -/
def answer (v : Value) : Except Failure Value :=
  if v.isWritable then .ok v else .error (.argument .tooManyDigits)

end FamilyStore.Value
