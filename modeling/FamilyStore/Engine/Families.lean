import FamilyStore.Engine.State

/-!
Families and their records: creating and deleting families, writing and updating records, and the
rendering of keys and messages for diagnostics.
-/

namespace FamilyStore.Engine.Run

/-- The store of a path for a family index; a new one when there is none yet. -/
def storeFor (path : String) (index : Nat) : Run StoreId := do
  let e ← get
  let byIndex ← require (e.stores.get? path)
  match byIndex.get? index with
  | some s => return s
  | none =>
    let s := e.records.size
    set { e with
      records := e.records.set s .empty
      stores := e.stores.set path (byIndex.set index s) }
    return s

/-- Creates the next family of a database. -/
def familyCreate (h : Handle) (config : DataRecord) : Run FamilyHandle := do
  note .familyCreate (.handle h)
  let e ← get
  let database ← require (e.databases.get? h)
  let index := database.nextFamily
  set { e with databases := e.databases.set h { database with nextFamily := index + 1 } }
  let store ← storeFor database.path index
  modify fun e => { e with families := e.families.set (h, index) ⟨h, config, store, false⟩ }
  return (h, index)

/-- Deletes a family. Its records stay. -/
def familyDelete (f : FamilyHandle) : Run Unit := do
  note .familyDelete (.family f)
  let e ← get
  let family ← require (e.families.get? f)
  if family.deleted then refuse .familyDeletedTwice
  set { e with families := e.families.set f { family with deleted := true } }

/-- Whether a key of some length is too long for a family. -/
def isTooLong (family : Family) (length : Nat) : Bool :=
  family.config.maxKeySize.toNat < length

/-- Writes a record. -/
def insert (f : FamilyHandle) (key value : Span) : Run Status := do
  note .insert (.family f)
  let family ← family f
  let status ← takePending .insert
  if status ≠ Status.success then return status
  if isTooLong family key.length then return Status.invalid
  let e ← get
  setRecords family.store ((e.recordsOf family.store).set key.read value.read)
  return Status.success

/-- The entry point behind a call of a merge. -/
def accumulatorEntry : AccumulatorCall → EntryPoint
  | .data => .accumulatorData
  | .length => .accumulatorLength
  | .resize => .accumulatorResize

/-- Merges the delta in the accumulator `acc` into the record of a key, or resolves it when there
is no such record. -/
def merge (family : Family) (key : Bytes) (acc : Handle) : Run (Status × List Event) := do
  let e ← get
  let accumulator ← require (e.accumulators.get? acc)
  let funcs := family.config.funcs
  let records := e.recordsOf family.store
  let outcome :=
    match records.get? key with
    | some old => funcs.mergeInto key (some old) accumulator e.refuseResize
    | none => funcs.mergeFinalInto key accumulator e.refuseResize
  let calls := outcome.calls.map fun c => Call.mk (accumulatorEntry c) (.handle acc)
  set { e with
    calls := calls.reverse ++ e.calls
    accumulators := e.accumulators.set acc outcome.accumulator }
  if outcome.status = Status.success then
    setRecords family.store (records.set key outcome.accumulator.contents)
  return (outcome.status, outcome.events)

/-- Updates a record by a delta. -/
def update (f : FamilyHandle) (key delta : Span) : Run (Status × List Event) := do
  note .update (.family f)
  let family ← family f
  let status ← takePending .update
  if status ≠ Status.success then return (status, [])
  if isTooLong family key.read.length then return (Status.invalid, [])
  let acc ← newHandle
  modify fun e => { e with accumulators := e.accumulators.set acc ⟨delta.read⟩ }
  let result ← merge family key.read acc
  modify fun e => { e with accumulators := e.accumulators.erase acc }
  return result

/-- Removes a record, if there is one. -/
def delete (f : FamilyHandle) (key : Span) : Run Status := do
  note .delete (.family f)
  let family ← family f
  let status ← takePending .delete
  if status ≠ Status.success then return status
  let e ← get
  setRecords family.store ((e.recordsOf family.store).erase key.read)
  return Status.success

/-- The length of the buffer for diagnostics. -/
def diagnosticsLength : Nat := 128

/-- The text of a key or a message in diagnostics. -/
def debugText (f : FamilyHandle) (slot : RenderSlot) (data : Bytes) :
    Run (String × List Event) := do
  let family ← family f
  let outcome := family.config.funcs.render slot data true diagnosticsLength
  let shown := outcome.written.takeWhile (· ≠ 0)
  match Text.Charset.utf8.decode shown with
  | .ok cs => return (String.ofList cs, outcome.events)
  | .error cause => throw (.argument (.undecodable cause))

end FamilyStore.Engine.Run
