import FamilyStore.Store.Families
import FamilyStore.Store.Views

/-!
Iterators over a family, and the records that they give out.

An iterator starts at its first record, so the first step only reads; each later step goes on before
it reads. A record can be read until its iterator goes on or is closed.
-/

namespace FamilyStore.Store

namespace Run

/-- Starts an iteration at a key, or at the first record when there is no start key. -/
def range (id : FamilyId) (start : Value) : Run IteratorId := do
  let (f, handle) ← openFamily id
  let span ← match start with
    | .null => pure (Span.null 0)
    | _ => keySpan f start
  let (result, events) ← engine (Engine.Run.iteratorInit handle span)
  note events
  match result with
  | .error status => throw (statusFailure .startIteration status)
  | .ok cursor =>
    let s ← get
    let iteratorId := s.iterators.size
    setIterator iteratorId ⟨id, some cursor, .running, false, 0, []⟩
    let f ← family id
    setFamily id { f with iterators := f.iterators ++ [iteratorId] }
    return iteratorId

/-- Makes the record that was given out stale and steps behind it. -/
def leaveRecord (id : IteratorId) (cursor : Engine.Handle) : Run Unit := do
  let i ← iterator id
  releaseViews id i.views
  let i ← iterator id
  setIterator id { i with generation := i.generation + 1, positioned := false }
  engine (Engine.Run.iteratorNext cursor)

/-- Notes that an iteration is over, and fails if it ended in a failure. -/
def endIteration (id : IteratorId) (cursor : Engine.Handle) : Run Unit := do
  let status ← engine (Engine.Run.iteratorStatus cursor)
  let i ← iterator id
  if status ≠ Status.success then
    setIterator id { i with progress := .failed status }
    throw (statusFailure .iterate status)
  setIterator id { i with progress := .exhausted }

/-- Gives out the record that the cursor is at. -/
def giveOut (id : IteratorId) (cursor : Engine.Handle) : Run RecordId := do
  let (key, value) ← engine (Engine.Run.iteratorGetCurrent cursor)
  let i ← iterator id
  setIterator id { i with positioned := true }
  let s ← get
  let recordId := s.records.size
  set { s with records := s.records.set recordId ⟨id, i.generation, key, value⟩ }
  return recordId

/-- Goes on to the next record, if there is one. -/
def advance (id : IteratorId) : Run (Option RecordId) := do
  let i ← iterator id
  match i.cursor with
  | none => fail .iteratorClosed
  | some cursor =>
    let f ← family i.family
    if f.isClosed then fail .iteratorFamilyClosed
    match i.progress with
    | .failed status => fail (.iteratorStopped status)
    | .exhausted => return none
    | .running =>
      if i.positioned then leaveRecord id cursor
      if ← engine (Engine.Run.iteratorValid cursor) then
        return some (← giveOut id cursor)
      endIteration id cursor
      return none

/-- Closes an iterator. -/
def closeIterator (id : IteratorId) : Run Unit := do
  let i ← iterator id
  match i.cursor with
  | none => return ()
  | some cursor =>
    releaseViews id i.views
    let i ← iterator id
    setIterator id { i with
      cursor := none, generation := i.generation + 1, positioned := false }
    engine (Engine.Run.iteratorDeinit cursor)

/-- Whether a record can be read. -/
def isValid (r : Record) : Run Bool := do
  return (← iterator r.iterator).generation == r.generation

/-- Fails for a record that is stale. -/
def checkValid (r : Record) : Run Unit := do
  if !(← isValid r) then fail .staleResult

/-- A copy of the bytes of an extent. -/
def copyExtent (x : Engine.Extent) : Run Bytes := do
  return (← get).engine.memory.read x

/-- Copies the key and the value of a record. -/
def copyRecord (id : RecordId) : Run (Bytes × Bytes) := do
  let r ← record id
  checkValid r
  return (← copyExtent r.key, ← copyExtent r.value)

/-- A view of the key of a record. -/
def viewKey (id : RecordId) : Run ViewId := do
  let r ← record id
  checkValid r
  newView r.iterator r.key

/-- A view of the value of a record. -/
def viewValue (id : RecordId) : Run ViewId := do
  let r ← record id
  checkValid r
  newView r.iterator r.value

/-- A record as messages show it. -/
def recordText (id : RecordId) : Run String := do
  let r ← record id
  if ← isValid r then
    return "IteratorResult(key_len=" ++ toString r.key.length ++ ", value_len="
      ++ toString r.value.length ++ ")"
  return "IteratorResult(<stale>)"

/-- A copy of the next record, if there is one. -/
def next (id : IteratorId) : Run (Option (Bytes × Bytes)) := do
  match ← advance id with
  | some recordId => return some (← copyRecord recordId)
  | none => return none

/-- Copies of at most `fuel` further records. -/
def collect (id : IteratorId) : Nat → Run (List (Bytes × Bytes))
  | 0 => return []
  | fuel + 1 => do
    match ← next id with
    | some r => return r :: (← collect id fuel)
    | none => return []

/-- How many records an iterator visits at the most. -/
def visited (id : IteratorId) : Run Nat := do
  let i ← iterator id
  let s ← get
  match i.cursor.bind s.engine.cursors.get? with
  | some c => return c.records.length
  | none => return 0

/-- Copies of all further records. -/
def toList (id : IteratorId) : Run (List (Bytes × Bytes)) := do
  collect id ((← visited id) + 1)

/-- Copies of all records from a start key on. -/
def scan (id : FamilyId) (start : Value) : Run (List (Bytes × Bytes)) := do
  let i ← range id start
  ensuring (toList i) (closeIterator i)

/-- Closes a family handle, its iterators first. -/
def closeFamily (id : FamilyId) : Run Unit := do
  let f ← family id
  match f.handle with
  | none => return ()
  | some handle =>
    f.iterators.forM closeIterator
    let f ← family id
    setFamily id { f with handle := none }
    engine (Engine.Run.familyDelete handle)
    note [.familyClosed f.config.typeName]

end Run

/-- A family handle as messages show it; `none` when its key size has too many digits. -/
def Family.text? (f : Family) : Option String :=
  (Text.writeInt? f.config.maxKeySize).map fun size =>
    "ColumnFamily(type=" ++ Text.quote f.config.typeName ++ ", max_key_size=" ++ size ++ ", "
      ++ (if f.isClosed then "closed" else "open") ++ ")"

end FamilyStore.Store
