import FamilyStore.Script.State

/-!
What a script sees of handles and of the engine.
-/

namespace FamilyStore.Script

/-- A database handle as a script sees it. Its sizes must be writable. -/
def DatabaseState.of (d : Store.Database) : Except Failure DatabaseState :=
  if d.site.all fun site => site.sizes.settings.isWritable then
    .ok {
      path := d.site.map (·.path)
      closed := d.isClosed
      text := d.text
      sizes := d.site.map (·.sizes) }
  else .error (.argument .tooManyDigits)

/-- The engine's call counters and its live objects. -/
def Stats.of (e : Engine) : Stats where
  calls := (Engine.EntryPoint.all.map fun p => (p, e.callCount p)).filter fun c => c.2 ≠ 0
  databases := e.liveDatabases
  configBlocks := e.liveConfigBlocks
  families := e.liveFamilies
  cursors := e.liveCursors
  lookups := e.liveLookups
  threads := e.threads

namespace Run

/-- A database handle as a script sees it. -/
def databaseState (id : Store.DatabaseId) : Run DatabaseState := do
  let d ← store (Store.Run.database id)
  store (Store.Run.ofExcept (DatabaseState.of d))

/-- A family handle as a script sees it. -/
def familyState (id : Store.FamilyId) : Run FamilyState := do
  let f ← store (Store.Run.family id)
  let d ← store (Store.Run.database f.database)
  match f.text? with
  | none => throw (.argument .tooManyDigits)
  | some text =>
    return ⟨f.config.typeName, f.config.maxKeySize, f.isClosed, text, f.config.funcs.className,
      d.isClosed⟩

/-- The text of a family handle that may be missing. -/
def familyText (id? : Option Store.FamilyId) : Run (Option String) := do
  match id? with
  | none => return none
  | some id => return some (← familyState id).text

/-- A demonstration as a script sees it. -/
def demoState (d : Demo) : Run DemoState := do
  let database ← match d.database with
    | none => pure none
    | some id => do pure (some (← databaseState id))
  return ⟨d.program, d.path, database, ← familyText d.users, ← familyText d.counters⟩

/-- What a script sees of the handle under a name. -/
def observe (name : Name) : Run Result := do
  match ← target name with
  | .database id => return .database (← databaseState id)
  | .family id => return .family (← familyState id)
  | .iterator id => return .iterator (← store (Store.Run.iterator id)).isClosed
  | .record id => do
    let r ← store (Store.Run.record id)
    return .record (← store (Store.Run.isValid r)) (← store (Store.Run.recordText id))
  | _ => unusable

/-- Closes the handle under a name. -/
def close (name : Name) : Run Unit := do
  match ← target name with
  | .database id => store (Store.Run.closeDatabase id)
  | .family id => store (Store.Run.closeFamily id)
  | .iterator id => store (Store.Run.closeIterator id)
  | _ => unusable

/-- Enters the block of the handle under a name, which is then the handle itself. -/
def enter (name : Name) : Run Result := do
  match ← target name with
  | .view id => store (do Store.Run.checkReadable (← Store.Run.view id))
  | _ => return .flag true
  return .flag true

/-- Leaves the block of the handle under a name: a view is released, and every other handle is
closed. -/
def leave (name : Name) : Run Result := do
  match ← target name with
  | .view id => do
    store (Store.Run.releaseView id)
    return .nothing
  | _ => do
    close name
    return .flag false

/-- Releases the view or the hold under a name. -/
def release (name : Name) : Run Unit := do
  match ← target name with
  | .view id => store (Store.Run.releaseView id)
  | _ => releaseHold name

/-- Whether a value is in what a name stands for: as a key of a family, as an item of a view, or
among the records that an iterator has left. No value is a record, but all that are left are passed
on the way. -/
def contains (name : Name) (v : Value) : Run Bool := do
  match ← target name with
  | .iterator id => do
    let _ ← store (Store.Run.toList id)
    return false
  | .view id => do
    let bs ← store (Store.Run.readView id)
    return bs.any fun b => v.equals (.int b.toNat)
  | _ => do
    let id ← family name
    store (Store.Run.contains id v)

/-- All items of a view, or all records that an iterator has left. -/
def toList (name : Name) : Run Result := do
  match ← target name with
  | .view id => do
    let bs ← store (Store.Run.readView id)
    return .value (.list (bs.map fun b => .int b.toNat))
  | _ => return .remaining (← store (Store.Run.toList (← iterator name)))

/-- The view whose bytes are held on to through a view or through a hold on it. -/
def holdable (name : Name) : Run Store.ViewId := do
  match ← target name with
  | .hold id true => return id
  | .hold _ false => throw (.argument .holdReleased)
  | _ => view name

end Run

end FamilyStore.Script
