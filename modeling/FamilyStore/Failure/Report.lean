import FamilyStore.Failure
import FamilyStore.Value.Text

/-!
What the catcher of a failure can read off it: kind, message, code and sizes.

Failures of the store can also be made by callers, from a status or from parts of their own. Then
the code may be any value, and the sizes of a key failure may be any two values.
-/

namespace FamilyStore

/-- A failure as its catcher sees it. -/
structure Report where
  kind : FailureKind
  message : String
  /-- The code of a failure of the store. -/
  code : Option Value
  /-- The length and the limit that a key failure carries. -/
  sizes : Option (Value × Value)

namespace Failure

/-- The report of a failure. -/
def report : Failure → Report
  | store (.keyTooLarge length limit) =>
    let fault := StoreFault.keyTooLarge length limit
    ⟨fault.kind, fault.message, some (.int fault.code), some (.int length, .int limit)⟩
  | store fault => ⟨fault.kind, fault.message, some (.int fault.code), none⟩
  | f => ⟨f.kind, f.message, none, none⟩

end Failure

namespace Report

/-- A value as text inside a message. -/
def shown (v : Value) : Except Failure String :=
  match v.plain? with
  | some s => .ok s
  | none => .error (.argument .tooManyDigits)

/-- The report of a key failure with the given length and limit. -/
def keyTooLarge (length limit : Value) : Except Failure Report := do
  let l ← shown length
  let m ← shown limit
  return ⟨.keyTooLarge, StoreFault.keyTooLargeMessage l m, some (.int Status.invalid),
    some (length, limit)⟩

/-- The report of a store failure of a kind other than the key failures. Its code must be writable
as well. -/
def general (kind : FailureKind) (text code : Value) : Except Failure Report := do
  let message ← shown text
  let _ ← shown code
  return ⟨kind, message, some code, none⟩

/-- Makes a store failure from the arguments of its constructor. -/
def ofArguments (kind : FailureKind) (args : List Value) : Except Failure Report :=
  if kind = .keyTooLarge then
    let owner := "KeyTooLargeError.__init__()"
    match args with
    | [] => .error (.argument (.missingArguments owner ["key_len", "max_key_size"]))
    | [_] => .error (.argument (.missingArguments owner ["max_key_size"]))
    | [length, limit] => keyTooLarge length limit
    | _ => .error (.argument (.surplusArguments owner "3" (args.length + 1)))
  else
    let owner := "SplinterDBError.__init__()"
    match args with
    | [] => .error (.argument (.missingArguments owner ["message"]))
    | [text] => general kind text (.int Status.invalid)
    | [text, code] => general kind text code
    | _ => .error (.argument (.surplusArguments owner "from 2 to 3" (args.length + 1)))

/-- Makes a store failure from a status and a context. A key failure takes the wording for the
length and the status for the limit. -/
def ofStatus (kind : FailureKind) (code : Value) (context : String) : Except Failure Report :=
  match code.index? with
  | none => .error (.argument (.notInteger code.typeName))
  | some status =>
    if !Status.fits status then .error (.argument .tooLargeForStatus)
    else do
      let codeText ← shown code
      let message := StoreFault.statusMessage context status codeText
      if kind = .keyTooLarge then keyTooLarge (.str message) code
      else general kind (.str message) code

end Report

end FamilyStore
