import FamilyStore.Binary64.Text
import FamilyStore.Text.Decimal
import FamilyStore.Text.Quoted
import FamilyStore.Value.Basic

/-!
Text of values. `show?` writes a value so that its type can be told, with quotes around text;
`plain?` writes a text as it is. Both fail when an integer in the value has too many digits.
-/

namespace FamilyStore.Value

/-- How a buffer is shown. The memory behind a view has no name to show. -/
def showBuffer : Buffer → String
  | .bytes bs => Text.quoteBytes bs
  | .mutable bs => "bytearray(" ++ Text.quoteBytes bs ++ ")"
  | .view _ _ => "<memory at 0x0>"

mutual

/-- A value as messages show it; `none` when an integer has too many digits. -/
def show? : Value → Option String
  | .null => some "None"
  | .bool b => some (if b then "True" else "False")
  | .int n => Text.writeInt? n
  | .float x => some x.text
  | .str s => some (Text.quote s)
  | .list items => (showAll? items).map fun shown => "[" ++ ", ".intercalate shown ++ "]"
  | .buffer b => some (showBuffer b)

/-- The items of a list as messages show them. -/
def showAll? : List Value → Option (List String)
  | [] => some []
  | x :: xs =>
    match show? x, showAll? xs with
    | some s, some ss => some (s :: ss)
    | _, _ => none

end

/-- A value as text: a text is itself, and everything else is as it is shown. -/
def plain? : Value → Option String
  | .str s => some s
  | v => show? v

/-- Whether no integer in a value has too many digits to be written. -/
def isWritable (v : Value) : Bool := v.show?.isSome

end FamilyStore.Value
