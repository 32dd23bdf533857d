import FamilyStore.Engine.Sort
import FamilyStore.Engine.State

/-!
Cursors: iteration over the records of a family in the order of its keys.

A cursor walks the records that the family had when it was made, from the first one on whose key is
not below the start key. The key and the value of the present record lie in memory that the cursor
takes back with the next step.
-/

namespace FamilyStore.Engine

/-- A key and its value. -/
abbrev Record := Bytes × Bytes

/-- Whether one record comes before another in the order of some data functions. -/
def precedes (f : DataFuncs) (a b : Record) : Bool := f.rank a.1 b.1 == .lt

/-- Whether a record is not below the start key. -/
def reaches (f : DataFuncs) (start : Bytes) (r : Record) : Bool := f.rank r.1 start != .lt

/-- The records that an iteration visits. Without the address of a start key it visits all. -/
def selected (f : DataFuncs) (records : Records) (start : Span) : List Record :=
  let sorted := Sort.sort (precedes f) records.entries
  if start.isNull then sorted else sorted.filter (reaches f start.read)

/-- What selecting the records leaves in the log. -/
def selectionEvents (f : DataFuncs) (records : Records) (start : Span) : List Event :=
  let compared := Sort.comparisons (precedes f) records.entries
  let sorted := Sort.sort (precedes f) records.entries
  compared.flatMap (fun p => f.rankEvents p.1.1 p.2.1)
    ++ (if start.isNull then [] else sorted.flatMap fun r => f.rankEvents r.1 start.read)

namespace Run

/-- Makes a cursor. -/
def iteratorInit (f : FamilyHandle) (start : Span) : Run (Except Status Handle × List Event) := do
  note .iteratorInit (.family f)
  let family ← family f
  let status ← takePending .iteratorInit
  if status ≠ Status.success then return (.error status, [])
  let e ← get
  let records := e.recordsOf family.store
  let funcs := family.config.funcs
  let h ← newHandle
  let visited := selected funcs records start
  modify fun e =>
    { e with cursors := e.cursors.set h ⟨visited, 0, none, Status.success, e.failIterationAt⟩ }
  return (.ok h, selectionEvents funcs records start)

/-- The cursor under a handle. -/
def cursor (h : Handle) : Run Cursor := do
  let e ← get
  require (e.cursors.get? h)

/-- Replaces a cursor. -/
def setCursor (h : Handle) (c : Cursor) : Run Unit :=
  modify fun e => { e with cursors := e.cursors.set h c }

/-- Whether a cursor is to fail at its position. -/
def failsHere (c : Cursor) : Bool :=
  match c.failAt with
  | some k => k ≤ c.position
  | none => false

/-- Whether a cursor is at a record. -/
def iteratorValid (h : Handle) : Run Bool := do
  note .iteratorValid (.handle h)
  let c ← cursor h
  if failsHere c then
    setCursor h { c with status := Status.ioError }
    return false
  return c.position < c.records.length

/-- Takes the memory of the present record back. -/
def releaseCurrent (c : Cursor) : Run Unit :=
  match c.current with
  | some (key, value) =>
    modify fun e => { e with memory := (e.memory.poison key).poison value }
  | none => pure ()

/-- Steps to the next record. -/
def iteratorNext (h : Handle) : Run Unit := do
  note .iteratorNext (.handle h)
  let c ← cursor h
  releaseCurrent c
  setCursor h { c with current := none, position := c.position + 1 }

/-- Puts the key and the value of a record into memory, unless they are there already. -/
def lend (h : Handle) (c : Cursor) (r : Record) : Run (Address × Address) :=
  match c.current with
  | some addresses => return addresses
  | none => do
    let e ← get
    let key := e.memory.next
    let afterKey := e.memory.alloc r.1
    let value := afterKey.next
    set { e with
      memory := afterKey.alloc r.2
      cursors := e.cursors.set h { c with current := some (key, value) } }
    return (key, value)

/-- Where the key and the value of the present record lie. -/
def iteratorGetCurrent (h : Handle) : Run (Extent × Extent) := do
  note .iteratorGetCurrent (.handle h)
  let c ← cursor h
  match c.records[c.position]? with
  | none => refuse .pastEnd
  | some r =>
    let (key, value) ← lend h c r
    return (⟨key, r.1.length⟩, ⟨value, r.2.length⟩)

/-- The status of a cursor. -/
def iteratorStatus (h : Handle) : Run Status := do
  note .iteratorStatus (.handle h)
  return (← cursor h).status

/-- Gives a cursor back. -/
def iteratorDeinit (h : Handle) : Run Unit := do
  note .iteratorDeinit (.handle h)
  let c ← cursor h
  modify fun e => { e with cursors := e.cursors.erase h }
  releaseCurrent c

end Run

end FamilyStore.Engine
