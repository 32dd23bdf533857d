import FamilyStore.DataFuncs.Basic
import FamilyStore.Value.Text

/-!
What callers hand in as the data functions of a family: the functions themselves, or a class that
makes them.
-/

namespace FamilyStore

/-- An argument that should give data functions. -/
inductive FuncsArgument where
  /-- A class of data functions. -/
  | ofClass (funcs : DataFuncs)
  /-- Data functions themselves. -/
  | ofInstance (funcs : DataFuncs)
  /-- A class of data functions that leaves methods open. -/
  | abstractClass (name : String) (openMethods : List String)
  /-- A class of something else. -/
  | otherClass (name : String)
  | value (v : Value)

namespace FuncsArgument

/-- The failure for an argument that gives no data functions. -/
def refusal (shown? : Option String) : Failure :=
  match shown? with
  | some shown => .argument (.notDataFuncs shown)
  | none => .argument .tooManyDigits

/-- The data functions that an argument gives. -/
def resolve : FuncsArgument → Except Failure DataFuncs
  | ofClass funcs => .ok funcs
  | ofInstance funcs => .ok funcs
  | abstractClass name openMethods => .error (.argument (.abstractClass name openMethods))
  | otherClass name => .error (refusal (some ("<class '" ++ name ++ "'>")))
  | value v => .error (refusal v.show?)

/-- Whether resolving gives the argument itself. -/
def isInstance : FuncsArgument → Bool
  | ofInstance _ => true
  | _ => false

end FuncsArgument

end FamilyStore
