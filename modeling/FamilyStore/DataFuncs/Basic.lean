import FamilyStore.DataFuncs.Returned

/-!
Data functions: the order of the keys of a family, the meaning of its updates, and the text of its
keys and messages in diagnostics. Each may give back anything, fail or escape; what becomes of that
is decided where the engine calls it.
-/

namespace FamilyStore

/-- A character of a rendered text. A text may hold halves of surrogate pairs, which no byte string
encodes. -/
inductive Glyph where
  | char (c : Char)
  | unpaired
  deriving DecidableEq, Repr

/-- What rendering a key or a message gives. -/
inductive Rendering where
  | text (glyphs : List Glyph)
  /-- Something that has no encoding, by the name of its type. -/
  | other (typeName : String)
  /-- Something that encodes itself in a way of its own: what is left of that when it is cut to a
  number of items. A failure to cut it is caught, and one to put a zero byte behind it escapes. -/
  | encoder (cut : Nat → Attempt Unit Bytes)

/-- A text as a rendering. -/
def Rendering.ofString (s : String) : Rendering := .text (s.toList.map Glyph.char)

/-- The data functions of one sort of family. -/
structure DataFuncs where
  /-- The name of the class, which serves where no other name is given. -/
  className : String
  name : Option String
  /-- Compares two keys: a number below, at or above zero. -/
  compare : Bytes → Bytes → Attempt Int32 Returned
  /-- Combines the value stored under a key, if there is one, with a delta. -/
  merge : Bytes → Option Bytes → Bytes → Attempt StrayStatus Returned
  /-- Resolves a delta for a key without a value. -/
  mergeFinal : Bytes → Bytes → Attempt StrayStatus Returned
  keyText : Bytes → Attempt Unit Rendering
  messageText : Bytes → Attempt Unit Rendering

namespace DataFuncs

/-- The name of the sort of family in diagnostics. -/
def typeName (f : DataFuncs) : String :=
  match f.name with
  | none => f.className
  | some name => if name = "" then f.className else name

/-- An order as what a comparison gives back. -/
def rankValue (o : Ordering) : Returned := .value (.int (Value.signInt o))

/-- The hexadecimal text of a byte string. -/
def hexText (bs : Bytes) : Attempt Unit Rendering := .ok (.ofString bs.toHex)

/-- The built-in data functions. -/
inductive Builtin where
  /-- Ascending bytewise order; an update replaces the value. -/
  | default
  /-- Descending bytewise order; an update replaces the value. -/
  | reverse
  /-- Ascending bytewise order; values are counters and an update adds to them. -/
  | counter
  deriving DecidableEq, Repr

/-- The order of keys that a built-in uses. -/
def Builtin.rank : Builtin → Bytes → Bytes → Ordering
  | .reverse, a, b => Bytes.order b a
  | _, a, b => Bytes.order a b

end DataFuncs

end FamilyStore
