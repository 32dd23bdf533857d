import FamilyStore.DataFuncs.Basic
import FamilyStore.Text.Utf8
import FamilyStore.Value.Text

/-!
The data configuration of a family: its data functions and the longest key it takes, and the record
of them that the engine works with.
-/

namespace FamilyStore

/-- The engine's record of a data configuration: the key size in 64 bits, and the name in a field
of fixed length. -/
structure DataRecord where
  maxKeySize : UInt64
  typeName : Bytes
  funcs : DataFuncs

/-- The length of the engine's field for a name, the closing zero byte included. -/
def typeNameField : Nat := 64

/-- The data functions of a family and the longest key it takes. -/
structure DataConfig where
  funcs : DataFuncs
  maxKeySize : Nat
  pos : 0 < maxKeySize

namespace DataConfig

/-- A value in a message. -/
def shown (text? : Option String) (failure : String → StoreFault) : Failure :=
  match text? with
  | some text => .store (failure text)
  | none => .argument .tooManyDigits

/-- Whether a size is above a limit that may be of any type. -/
def exceeds (size : Nat) (limit : Value) : Except Failure Bool :=
  match limit.index? with
  | some n => .ok (n < size)
  | none =>
    match limit with
    | .float x => .ok (Binary64.compareInt size x == some .gt)
    | v => .error (.argument (.unorderable "int" v.typeName))

/-- The failure for a size above its limit. -/
def aboveLimit (size : Nat) (limit : Value) : Failure :=
  match Value.plain? (.int size), limit.plain? with
  | some s, some l => .store (.keySizeAboveLimit s l)
  | _, _ => .argument .tooManyDigits

/-- The configuration for a key size, which must be a positive integer up to a limit. -/
def make (funcs : DataFuncs) (maxKeySize limit : Value) : Except Failure DataConfig :=
  match maxKeySize.size? with
  | some size => do
    if ← exceeds size.1 limit then throw (aboveLimit size.1 limit)
    return ⟨funcs, size.1, size.2⟩
  | none => .error (shown maxKeySize.show? .keySizeNotPositive)

/-- The name of the sort of family. -/
def typeName (c : DataConfig) : String := c.funcs.typeName

/-- The engine's record of a configuration. -/
def record (c : DataConfig) : DataRecord where
  maxKeySize := UInt64.ofNat c.maxKeySize
  typeName := (Text.Utf8.encode c.typeName.toList).take (typeNameField - 1)
  funcs := c.funcs

/-- A configuration as messages show it; `none` when the size has too many digits. -/
def show? (c : DataConfig) : Option String :=
  (Text.writeInt? c.maxKeySize).map fun size =>
    "DataConfig(type=" ++ Text.quote c.typeName ++ ", max_key_size=" ++ size ++ ")"

end DataConfig

/-- The name in the engine's record, up to the first zero byte. -/
def DataRecord.nameUpToZero (r : DataRecord) : Bytes := r.typeName.takeWhile (· ≠ 0)

end FamilyStore
