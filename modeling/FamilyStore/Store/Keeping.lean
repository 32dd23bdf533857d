import FamilyStore.Store.Databases
import FamilyStore.Store.Iterators

/-!
Who keeps a handle, and what becomes of a handle that nobody keeps.

A database handle is kept by those who hold it and by every family on it that is kept itself. A
handle that nobody keeps any more is closed, unless its database is closed already. A failure on the
way vanishes.
-/

namespace FamilyStore.Store.Run

/-- Work whose failure vanishes. -/
def quietly (work : Run Unit) : Run Unit := do
  let _ ← outcome work

/-- Forgets an iterator. -/
def forgetIterator (id : IteratorId) : Run Unit := do
  let i ← iterator id
  let f ← family i.family
  let d ← database f.database
  if !i.isClosed && !d.isClosed then quietly (closeIterator id)
  let f ← family i.family
  setFamily i.family { f with iterators := f.iterators.filter (· ≠ id) }

/-- Forgets a family handle. -/
def forgetFamily (id : FamilyId) : Run Unit := do
  let f ← family id
  let d ← database f.database
  if !f.isClosed && !d.isClosed then quietly (closeFamily id)

/-- Forgets a database handle. -/
def forgetDatabase (id : DatabaseId) : Run Unit := quietly (closeDatabase id)

/-- Whether a family on a database is kept. -/
def hasKeptFamily (id : DatabaseId) : Run Bool := do
  return (← get).families.entries.any fun e => e.2.database == id && 0 < e.2.keepers

/-- Forgets a database handle unless it is kept. -/
def settleDatabase (id : DatabaseId) : Run Unit := do
  let d ← database id
  if d.keepers = 0 && !(← hasKeptFamily id) then forgetDatabase id

/-- One more keeps a database handle. -/
def keepDatabase (id : DatabaseId) : Run Unit := do
  let d ← database id
  setDatabase id { d with keepers := d.keepers + 1 }

/-- One less keeps a database handle. -/
def letDatabaseGo (id : DatabaseId) : Run Unit := do
  let d ← database id
  setDatabase id { d with keepers := d.keepers - 1 }
  settleDatabase id

/-- One more keeps a family handle. -/
def keepFamily (id : FamilyId) : Run Unit := do
  let f ← family id
  setFamily id { f with keepers := f.keepers + 1 }

/-- One less keeps a family handle. -/
def letFamilyGo (id : FamilyId) : Run Unit := do
  let f ← family id
  setFamily id { f with keepers := f.keepers - 1 }
  if f.keepers ≤ 1 then
    forgetFamily id
    settleDatabase f.database

end FamilyStore.Store.Run
