import FamilyStore.Engine.State

/-!
Looking up records. A lookup works in memory that the caller sets aside for its result; the memory
must be given back.
-/

namespace FamilyStore.Engine

/-- An address at which no result lies. -/
def freeLookup (e : Engine) : Nat := e.lookups.keys.foldl max 0 + 1

namespace Run

/-- Sets memory at an address aside for a result. -/
def lookupInit (f : FamilyHandle) (address : Nat) : Run Unit := do
  note .lookupInit (.lookup address)
  let _ ← family f
  let e ← get
  if e.lookups.contains address then refuse .lookupStartedTwice
  set { e with lookups := e.lookups.set address none }

/-- Looks a key up. -/
def lookup (f : FamilyHandle) (key : Span) (address : Nat) : Run Status := do
  note .lookup (.lookup address)
  let family ← family f
  let e ← get
  let _ ← require (e.lookups.get? address)
  let status ← takePending .lookup
  if status ≠ Status.success then return status
  match (e.recordsOf family.store).get? key.read with
  | some value => modify fun e => { e with lookups := e.lookups.set address (some value) }
  | none => pure ()
  return Status.success

/-- Whether a lookup found a record. -/
def lookupFound (address : Nat) : Run Bool := do
  note .lookupFound (.lookup address)
  let e ← get
  let found ← require (e.lookups.get? address)
  return found.isSome

/-- The value that a lookup found. -/
def lookupValue (address : Nat) : Run (Except Status Bytes) := do
  note .lookupValue (.lookup address)
  let e ← get
  let found ← require (e.lookups.get? address)
  let status ← takePending .lookupValue
  if status ≠ Status.success then return .error status
  let value ← require found
  return .ok value

/-- Gives the memory of a result back. -/
def lookupDeinit (address : Nat) : Run Unit := do
  note .lookupDeinit (.lookup address)
  let e ← get
  let _ ← require (e.lookups.get? address)
  set { e with lookups := e.lookups.erase address }

end Run

end FamilyStore.Engine
