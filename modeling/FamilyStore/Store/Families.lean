import FamilyStore.Store.State

/-!
Family handles: writing, updating and looking up records.

Arguments are checked before the engine is asked for anything.
-/

namespace FamilyStore.Store.Run

/-- The engine's family behind a handle that is open on an open database. -/
def openFamily (id : FamilyId) : Run (Family × Engine.FamilyHandle) := do
  let f ← family id
  match f.handle with
  | none => fail .familyClosed
  | some handle =>
    let d ← database f.database
    if d.isClosed then fail .databaseClosed
    return (f, handle)

/-- A slice with the bytes that its source holds. -/
def sliceOf (v : Value) : Run Slice := ofExcept (Slice.ofValue v)

/-- The bytes of a key, which must be there and not too long for its family. -/
def keySpan (f : Family) (key : Value) : Run Span := do
  match key with
  | .null => throw (.argument .nullKey)
  | _ =>
    let slice ← sliceOf key
    if f.config.maxKeySize < slice.length then
      fail (.keyTooLarge slice.length f.config.maxKeySize)
    return slice.span key.contents

/-- The bytes of a value or a delta; nothing counts as an empty one. -/
def valueSpan (v : Value) : Run Span := do
  return (← sliceOf v).span v.contents

/-- Writes a record. -/
def insert (id : FamilyId) (key value : Value) : Run Unit := do
  let (f, handle) ← openFamily id
  let key ← keySpan f key
  let value ← valueSpan value
  checkStatus .insert (← engine (Engine.Run.insert handle key value))

/-- Merges a delta into a record. -/
def update (id : FamilyId) (key delta : Value) : Run Unit := do
  let (f, handle) ← openFamily id
  let key ← keySpan f key
  let delta ← valueSpan delta
  let (status, events) ← engine (Engine.Run.update handle key delta)
  note events
  checkStatus .update status

/-- Removes a record; a missing one is no failure. -/
def delete (id : FamilyId) (key : Value) : Run Unit := do
  let (f, handle) ← openFamily id
  let key ← keySpan f key
  checkStatus .delete (← engine (Engine.Run.delete handle key))

/-- Looks a key up in memory that has been set aside. -/
def lookupIn (handle : Engine.FamilyHandle) (key : Span) (address : Nat) :
    Run (Option Bytes) := do
  checkStatus .lookup (← engine (Engine.Run.lookup handle key address))
  if ← engine (Engine.Run.lookupFound address) then
    match ← engine (Engine.Run.lookupValue address) with
    | .ok value => return some value
    | .error status => throw (statusFailure .readLookup status)
  else return none

/-- The value of a key, if there is one. -/
def lookup (id : FamilyId) (key : Value) : Run (Option Bytes) := do
  let (f, handle) ← openFamily id
  let key ← keySpan f key
  let address := (← get).engine.freeLookup
  engine (Engine.Run.lookupInit handle address)
  ensuring (lookupIn handle key address) (engine (Engine.Run.lookupDeinit address))

/-- The value of a key, or a default. -/
def getOr (id : FamilyId) (key default : Value) : Run Value := do
  match ← lookup id key with
  | some value => return .bytes value
  | none => return default

/-- Whether a key has a value. A key that is too long has none. -/
def contains (id : FamilyId) (key : Value) : Run Bool := do
  match key with
  | .null => return (← lookup id key).isSome
  | _ =>
    let size ← ofExcept key.size
    let f ← family id
    if f.config.maxKeySize < size then return false
    return (← lookup id key).isSome

/-- The text of a key or a message in the engine's diagnostics. -/
def debugText (id : FamilyId) (slot : RenderSlot) (data : Bytes) : Run String := do
  let f ← family id
  match f.handle with
  | none => throw (.argument (.noAttribute "NoneType" "kvs"))
  | some handle =>
    let (text, events) ← engine (Engine.Run.debugText handle slot data)
    note events
    return text

end FamilyStore.Store.Run
