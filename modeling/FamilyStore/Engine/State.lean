import FamilyStore.DataConfig
import FamilyStore.DataFuncs.Callbacks
import FamilyStore.Engine.EntryPoint
import FamilyStore.Engine.Memory
import FamilyStore.Files.Tree

/-!
The state of the engine, which keeps databases in memory and marks their places with files.

Everything that a caller gets from the engine has a handle, a number that is never given out twice.
The records of a family lie in a store. Stores belong to a path and an index, so that a database
that is opened again finds them; a family holds on to its store even when a new database is created
at its path. Every call is noted together with what it was about.
-/

namespace FamilyStore

namespace Engine

/-- A number that stands for something in the engine. -/
abbrev Handle := Nat

/-- The handle of a family: its database and its index there. -/
abbrev FamilyHandle := Handle × Nat

/-- The number of a store. -/
abbrev StoreId := Nat

/-- The records of a family: values by key, in the order in which the keys came. -/
abbrev Records := Table Bytes Bytes

/-- An open or closed database. -/
structure Database where
  /-- The path at which it was created or opened. -/
  path : String
  isOpen : Bool
  /-- The index of the next family. -/
  nextFamily : Nat

/-- A family of a database. -/
structure Family where
  database : Handle
  config : DataRecord
  store : StoreId
  deleted : Bool

/-- An iteration over the records that a family had when the iteration started. -/
structure Cursor where
  records : List (Bytes × Bytes)
  /-- The number of steps made. -/
  position : Nat
  /-- Where the key and the value of the present record lie, once they were asked for. -/
  current : Option (Address × Address)
  status : Status
  /-- The position from which on the iteration fails. -/
  failAt : Option Int

/-- What a call was about. -/
inductive Subject where
  | nothing
  | handle (h : Handle)
  | family (f : FamilyHandle)
  /-- The memory for the result of a lookup. -/
  | lookup (address : Nat)
  deriving DecidableEq, Repr

/-- A call of an entry point. -/
structure Call where
  entry : EntryPoint
  subject : Subject
  deriving DecidableEq, Repr

/-- The configuration that a database is created or opened with. -/
structure DatabaseRecord where
  /-- The path, up to its first zero character. -/
  path : String
  cacheSize : UInt64
  diskSize : UInt64
  configBlock : Handle

end Engine

open Engine in
/-- The engine. -/
structure Engine where
  files : Files
  /-- The calls so far, the last one first. -/
  calls : List Call
  /-- Statuses that the next call of an entry point is to report instead of doing its work. -/
  pending : Table EntryPoint Status
  /-- The position at which new cursors are to fail. -/
  failIterationAt : Option Int
  /-- Whether no accumulator may change its length. -/
  refuseResize : Bool
  /-- How many threads are registered, over all databases. -/
  threads : Int
  nextHandle : Handle
  /-- The stores of each path, by the index of their family. -/
  stores : Table String (Table Nat StoreId)
  records : Table StoreId Records
  databases : Table Handle Database
  configBlocks : List Handle
  families : Table FamilyHandle Family
  accumulators : Table Handle Accumulator
  /-- The results of lookups that are not yet given back, with the value that was found. -/
  lookups : Table Nat (Option Bytes)
  cursors : Table Handle Cursor
  memory : Memory

namespace Engine

/-- The first handle. -/
def firstHandle : Handle := 0x1000

/-- The distance between handles. -/
def handleStep : Handle := 0x10

/-- The engine before the first call. -/
def initial (files : Files) : Engine where
  files := files
  calls := []
  pending := .empty
  failIterationAt := none
  refuseResize := false
  threads := 0
  nextHandle := firstHandle
  stores := .empty
  records := .empty
  databases := .empty
  configBlocks := []
  families := .empty
  accumulators := .empty
  lookups := .empty
  cursors := .empty
  memory := .empty

/-- How often an entry point was called. -/
def callCount (e : Engine) (entry : EntryPoint) : Nat :=
  e.calls.countP fun c => c.entry = entry

/-- How many databases are open. -/
def liveDatabases (e : Engine) : Nat := e.databases.entries.countP fun d => d.2.isOpen

/-- How many configuration blocks exist. -/
def liveConfigBlocks (e : Engine) : Nat := e.configBlocks.length

/-- How many families are not deleted. -/
def liveFamilies (e : Engine) : Nat := e.families.entries.countP fun f => !f.2.deleted

/-- How many cursors exist. -/
def liveCursors (e : Engine) : Nat := e.cursors.size

/-- How many results of lookups are not given back. -/
def liveLookups (e : Engine) : Nat := e.lookups.size

/-- The records of a store. -/
def recordsOf (e : Engine) (s : StoreId) : Records := (e.records.get? s).getD .empty

/-- Work in the engine: it may fail, and what it did before stays done. -/
abbrev Run (α : Type) := ExceptT Failure (StateM Engine) α

namespace Run

/-- Refuses a use of the engine. -/
def refuse {α : Type} (m : Misuse) : Run α := throw (.misuse m)

/-- The entry of a table under a handle that the caller must have. -/
def require {α : Type} (found : Option α) : Run α :=
  match found with
  | some a => return a
  | none => refuse .unknownHandle

/-- Notes a call. -/
def note (entry : EntryPoint) (subject : Subject) : Run Unit :=
  modify fun e => { e with calls := ⟨entry, subject⟩ :: e.calls }

/-- Takes the status that an entry point is to report, if there is one. -/
def takePending (entry : EntryPoint) : Run Status := do
  let e ← get
  set { e with pending := e.pending.erase entry }
  return (e.pending.get? entry).getD Status.success

/-- A new handle. -/
def newHandle : Run Handle := do
  let e ← get
  set { e with nextHandle := e.nextHandle + handleStep }
  return e.nextHandle

/-- The family under a handle, which must be in use. -/
def family (f : FamilyHandle) : Run Family := do
  let e ← get
  let family ← require (e.families.get? f)
  if family.deleted then refuse .familyDeleted
  let database ← require (e.databases.get? family.database)
  if !database.isOpen then refuse .databaseClosed
  return family

/-- Replaces the records of a store. -/
def setRecords (s : StoreId) (records : Records) : Run Unit :=
  modify fun e => { e with records := e.records.set s records }

end Run

end Engine

end FamilyStore
