import FamilyStore.Config.Settings
import FamilyStore.Engine.Cursors
import FamilyStore.Engine.Databases
import FamilyStore.Engine.Families
import FamilyStore.Engine.Lookups
import FamilyStore.Log

/-!
The state of the store: the handles that callers hold on databases, families, iterators, records
and views, beside the engine that they stand on.

A handle goes from open to closed and never back. What a closed handle knows of the engine is gone.
-/

namespace FamilyStore

namespace Store

/-- The number of a database handle. -/
abbrev DatabaseId := Nat

/-- The number of a family handle. -/
abbrev FamilyId := Nat

/-- The number of an iterator. -/
abbrev IteratorId := Nat

/-- The number of a record that an iterator has given out. -/
abbrev RecordId := Nat

/-- The number of a view of a record's bytes. -/
abbrev ViewId := Nat

/-- What a database handle has of the engine. -/
inductive Phase where
  /-- Nothing yet. -/
  | fresh
  /-- An open database and its configuration block. -/
  | opened (handle block : Engine.Handle)
  | closed
  deriving DecidableEq, Repr

/-- Where a database lies and which sizes it has. -/
structure Site where
  path : String
  sizes : Sizes

/-- A database handle. -/
structure Database where
  phase : Phase
  /-- Known from the opening on. -/
  site : Option Site
  /-- How many outside the store keep the handle. -/
  keepers : Nat

/-- Whether a database handle is of no use: closed, or never opened. -/
def Database.isClosed (d : Database) : Bool :=
  match d.phase with
  | .opened _ _ => false
  | _ => true

/-- A family handle. -/
structure Family where
  database : DatabaseId
  config : DataConfig
  /-- The engine's family, until the handle is closed. -/
  handle : Option Engine.FamilyHandle
  /-- The iterators over the family, the oldest first. -/
  iterators : List IteratorId
  /-- How many outside the store keep the handle. -/
  keepers : Nat

/-- Whether a family handle is closed. -/
def Family.isClosed (f : Family) : Bool := f.handle.isNone

/-- How far an iterator has come. -/
inductive Progress where
  | running
  | exhausted
  | failed (status : Status)
  deriving DecidableEq, Repr

/-- An iterator over a family. -/
structure Iterator where
  family : FamilyId
  /-- The engine's cursor, until the iterator is closed. -/
  cursor : Option Engine.Handle
  progress : Progress
  /-- Whether the iterator is at a record that it has given out. -/
  positioned : Bool
  /-- Grows whenever the record that was given out last becomes stale. -/
  generation : Nat
  /-- The views of the present record, the newest first. -/
  views : List ViewId

/-- Whether an iterator is closed. -/
def Iterator.isClosed (i : Iterator) : Bool := i.cursor.isNone

/-- A record that an iterator has given out: where its bytes lie in the engine's memory. -/
structure Record where
  iterator : IteratorId
  /-- The iterator's generation at which the record holds. -/
  generation : Nat
  key : Engine.Extent
  value : Engine.Extent

/-- A view of the key or the value of a record. -/
structure View where
  /-- The engine's memory that it shows; an empty key or value needs none. -/
  extent : Option Engine.Extent
  released : Bool
  /-- How many other objects hold on to the bytes. -/
  holders : Nat

end Store

open Store in
/-- The store. -/
structure Store where
  engine : Engine
  databases : Table DatabaseId Database
  families : Table FamilyId Family
  iterators : Table IteratorId Iterator
  records : Table RecordId Record
  views : Table ViewId View
  /-- The events since the log was last emptied, the last one first. -/
  log : List Event

namespace Store

/-- The store before the first operation. -/
def initial (files : Files) : Store where
  engine := .initial files
  databases := .empty
  families := .empty
  iterators := .empty
  records := .empty
  views := .empty
  log := []

/-- Work in the store: it may fail, and what it did before stays done. -/
abbrev Run (α : Type) := ExceptT Failure (StateM Store) α

namespace Run

/-- Work in the engine. -/
def engine {α : Type} (work : Engine.Run α) : Run α := fun s =>
  let (result, e) := work.run s.engine
  (result, { s with engine := e })

/-- Fails with a failure of the store. -/
def fail {α : Type} (fault : StoreFault) : Run α := throw (.store fault)

/-- A result that does not depend on the state. -/
def ofExcept {α : Type} : Except Failure α → Run α
  | .ok a => return a
  | .error f => throw f

/-- The entry of a table under a number that was given out. -/
def require {α : Type} (found : Option α) : Run α :=
  match found with
  | some a => return a
  | none => throw (.misuse .unknownHandle)

/-- The outcome of work, be it a failure. -/
def outcome {α : Type} (work : Run α) : Run (Except Failure α) := fun s =>
  let (result, s') := work.run s
  (.ok result, s')

/-- Does `last` after `work`, whether that fails or not. A failure of `last` comes first. -/
def ensuring {α : Type} (work : Run α) (last : Run Unit) : Run α := do
  let result ← outcome work
  last
  ofExcept result

/-- Puts events into the log. -/
def note (events : List Event) : Run Unit :=
  modify fun s => { s with log := events.reverse ++ s.log }

/-- The failure for a status of the engine. A status that does not fit has no wording. -/
def statusFailure (task : EngineTask) (status : Status) : Failure :=
  if Status.fits status then .store (.engine task status) else .argument .tooLargeForStatus

/-- Fails unless a status is success. -/
def checkStatus (task : EngineTask) (status : Status) : Run Unit :=
  if status = Status.success then return () else throw (statusFailure task status)

/-- A database handle. -/
def database (id : DatabaseId) : Run Database := do
  let s ← get
  require (s.databases.get? id)

/-- A family handle. -/
def family (id : FamilyId) : Run Family := do
  let s ← get
  require (s.families.get? id)

/-- An iterator. -/
def iterator (id : IteratorId) : Run Iterator := do
  let s ← get
  require (s.iterators.get? id)

/-- A record. -/
def record (id : RecordId) : Run Record := do
  let s ← get
  require (s.records.get? id)

/-- A view. -/
def view (id : ViewId) : Run View := do
  let s ← get
  require (s.views.get? id)

/-- Replaces a database handle. -/
def setDatabase (id : DatabaseId) (d : Database) : Run Unit :=
  modify fun s => { s with databases := s.databases.set id d }

/-- Replaces a family handle. -/
def setFamily (id : FamilyId) (f : Family) : Run Unit :=
  modify fun s => { s with families := s.families.set id f }

/-- Replaces an iterator. -/
def setIterator (id : IteratorId) (i : Iterator) : Run Unit :=
  modify fun s => { s with iterators := s.iterators.set id i }

/-- Replaces a view. -/
def setView (id : ViewId) (v : View) : Run Unit :=
  modify fun s => { s with views := s.views.set id v }

end Run

end Store

end FamilyStore
