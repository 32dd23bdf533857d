import FamilyStore.Failure
import FamilyStore.Value.Text

/-!
Results of looking up a key: whether it was found, and its value. Callers can make results of their
own from values of any type, so a result says nothing about its fields.
-/

namespace FamilyStore

/-- The outcome of a lookup. It cannot be changed. -/
structure LookupResult where
  found : Value
  value : Value

namespace LookupResult

/-- The outcome of a lookup that found nothing. -/
def notFound : LookupResult := ⟨.bool false, .null⟩

/-- The outcome of a lookup of a key with or without a value. -/
def ofValue? : Option Bytes → LookupResult
  | some bs => ⟨.bool true, .bytes bs⟩
  | none => notFound

/-- Makes a result from the arguments of its constructor. -/
def ofArguments : List Value → Except Failure LookupResult
  | [] => .error (.argument (.missingArguments "LookupResult.__init__()" ["found"]))
  | [found] => .ok ⟨found, .null⟩
  | [found, value] => .ok ⟨found, value⟩
  | args => .error (.argument (.surplusArguments "LookupResult.__init__()" "from 2 to 3"
      (args.length + 1)))

/-- Whether a result counts as true: its first field, which must then be a truth value. -/
def truth (r : LookupResult) : Except Failure Bool :=
  match r.found with
  | .bool b => .ok b
  | v => .error (.argument (.notTruthValue v.typeName))

/-- Equality of results, field by field. -/
def equals (r s : LookupResult) : Bool := r.found.equals s.found && r.value.equals s.value

/-- A result as messages show it. -/
def show? (r : LookupResult) : Option String :=
  match r.found.show?, r.value.show? with
  | some found, some value => some ("LookupResult(found=" ++ found ++ ", value=" ++ value ++ ")")
  | _, _ => none

/-- Setting a field always fails. -/
def assign (_r : LookupResult) (field : String) : Failure := .argument (.frozenField field)

end LookupResult

end FamilyStore
