import FamilyStore.Engine.State

/-!
Databases and threads.

Creating a database writes a mark into the file at its path and starts with no records; opening one
asks for the mark and goes on with the records of that path.
-/

namespace FamilyStore.Engine.Run

/-- What the file of a database holds. -/
def databaseMark : Bytes := Text.Utf8.encode "FAKE-SPLINTERDB\n".toList

/-- Makes a configuration block. -/
def configInit : Run Handle := do
  note .configInit .nothing
  let h ← newHandle
  modify fun e => { e with configBlocks := e.configBlocks ++ [h] }
  return h

/-- Gives a configuration block back. -/
def configDeinit (h : Handle) : Run Unit := do
  note .configDeinit (.handle h)
  let e ← get
  if !e.configBlocks.contains h then refuse .unknownHandle
  set { e with configBlocks := e.configBlocks.filter (· ≠ h) }

/-- Makes sure that a configuration block exists. -/
def checkConfigBlock (h : Handle) : Run Unit := do
  let e ← get
  if !e.configBlocks.contains h then refuse .unknownConfigBlock

/-- A new open database at a path, which keeps the stores that the path has. -/
def newDatabase (path : String) : Run Handle := do
  let h ← newHandle
  modify fun e =>
    { e with
      databases := e.databases.set h ⟨path, true, 1⟩
      stores := if e.stores.contains path then e.stores else e.stores.set path .empty }
  return h

/-- A failure of the file system as one of the call. -/
def ofFiles {α : Type} : Except Files.Fault α → Run α
  | .ok a => return a
  | .error fault => throw (.file fault)

/-- Creates a database. -/
def create (config : DatabaseRecord) : Run (Except Status Handle) := do
  note .create .nothing
  let status ← takePending .create
  if status ≠ Status.success then return .error status
  checkConfigBlock config.configBlock
  let e ← get
  let files ← ofFiles (e.files.write config.path databaseMark)
  set { e with files := files, stores := e.stores.set config.path .empty }
  return .ok (← newDatabase config.path)

/-- Opens a database. -/
def openExisting (config : DatabaseRecord) : Run (Except Status Handle) := do
  note .openExisting .nothing
  let status ← takePending .openExisting
  if status ≠ Status.success then return .error status
  checkConfigBlock config.configBlock
  let e ← get
  if !e.files.contains config.path then return .error Status.noEntry
  let content ← ofFiles (e.files.read config.path)
  if content ≠ databaseMark then return .error Status.invalid
  return .ok (← newDatabase config.path)

/-- Closes a database. -/
def close (h : Handle) : Run Unit := do
  note .close (.handle h)
  let e ← get
  let database ← require (e.databases.get? h)
  if !database.isOpen then refuse .databaseClosedTwice
  set { e with databases := e.databases.set h { database with isOpen := false } }

/-- Registers the calling thread. -/
def registerThread (h : Handle) : Run Unit := do
  note .registerThread (.handle h)
  modify fun e => { e with threads := e.threads + 1 }

/-- Takes the registration of the calling thread back. -/
def deregisterThread (h : Handle) : Run Unit := do
  note .deregisterThread (.handle h)
  modify fun e => { e with threads := e.threads - 1 }

end FamilyStore.Engine.Run
