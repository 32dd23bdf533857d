import FamilyStore.Store.State

/-!
Views of the key and the value of a record, without copying.

A view shows the engine's memory until it is released. Other objects may hold on to its bytes; then
it cannot be released.
-/

namespace FamilyStore.Store.Run

/-- Fails for a view that is released. -/
def checkReadable (v : View) : Run Unit :=
  if v.released then throw (.argument .viewReleased) else return ()

/-- The bytes that a view shows. -/
def bytesOf (v : View) : Run Bytes := do
  let s ← get
  match v.extent with
  | some extent => return s.engine.memory.read extent
  | none => return []

/-- Reads a view. -/
def readView (id : ViewId) : Run Bytes := do
  let v ← view id
  checkReadable v
  bytesOf v

/-- Releases a view, unless other objects hold on to it. -/
def releaseView (id : ViewId) : Run Unit := do
  let v ← view id
  if v.released then return ()
  if 0 < v.holders then throw (.argument (.viewHeld v.holders))
  setView id { v with released := true }

/-- Holds on to the bytes of a view. -/
def holdView (id : ViewId) : Run Unit := do
  let v ← view id
  checkReadable v
  setView id { v with holders := v.holders + 1 }

/-- Lets go of the bytes of a view. -/
def unholdView (id : ViewId) : Run Unit := do
  let v ← view id
  setView id { v with holders := v.holders - 1 }

/-- Releases the views of an iterator, the newest first. The work stops at a view that is held. -/
def releaseViews (id : IteratorId) : List ViewId → Run Unit
  | [] => return ()
  | v :: rest => do
    match ← outcome (releaseView v) with
    | .error _ => fail .viewExported
    | .ok () =>
      let i ← iterator id
      setIterator id { i with views := rest }
      releaseViews id rest

/-- A new view, which its iterator keeps track of. -/
def newView (id : IteratorId) (extent : Engine.Extent) : Run ViewId := do
  let s ← get
  let viewId := s.views.size
  setView viewId ⟨if extent.length = 0 then none else some extent, false, 0⟩
  let i ← iterator id
  setIterator id { i with views := viewId :: i.views }
  return viewId

end FamilyStore.Store.Run
