import FamilyStore.DataFuncs.Basic
import FamilyStore.DataFuncs.Counter
import FamilyStore.Text.Decimal

/-!
The built-in data functions.
-/

namespace FamilyStore.DataFuncs

namespace Builtin

/-- The name of the class of a built-in. -/
def className : Builtin → String
  | default => "DefaultDataFuncs"
  | reverse => "ReverseDataFuncs"
  | counter => "Uint64AddDataFuncs"

/-- The name of the families of a built-in. -/
def name : Builtin → String
  | default => "default"
  | reverse => "reverse"
  | counter => "uint64_add"

/-- The value after an update. -/
def merge (b : Builtin) (old : Option Bytes) (delta : Bytes) : Attempt StrayStatus Returned :=
  match b with
  | counter => Attempt.ofExcept ((Counter.add old delta).map Returned.bytes)
  | _ => .ok (.bytes delta)

/-- The text of a value: that of a counter is its number, all else is hexadecimal. -/
def messageText (b : Builtin) (message : Bytes) : Attempt Unit Rendering :=
  match b with
  | counter =>
    if message.length = Counter.width then
      .ok (.ofString (String.ofList (Text.natDigits message.toNatLittle)))
    else hexText message
  | _ => hexText message

/-- The data functions of a built-in. -/
def funcs (b : Builtin) : DataFuncs where
  className := b.className
  name := some b.name
  compare := fun k₁ k₂ => .ok (rankValue (b.rank k₁ k₂))
  merge := fun _ old delta => b.merge old delta
  mergeFinal := fun _ delta => b.merge none delta
  keyText := hexText
  messageText := b.messageText

end Builtin

end FamilyStore.DataFuncs
