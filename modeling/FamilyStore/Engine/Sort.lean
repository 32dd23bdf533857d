import FamilyStore.Engine.Sort.Runs

/-!
Sorting by a comparison that may be anything.

Elements that compare equal keep their order. Whatever the comparison answers, the result holds each
element exactly once; if it orders the elements in no consistent way, where they end up depends on
the runs that the list is cut into and on how these are merged.

The comparison may have effects, so that what was compared can be noted.
-/

namespace FamilyStore.Engine.Sort

variable {m : Type → Type} [Monad m] {α : Type}

/-- Sorts a list. -/
def sortM (less : α → α → m Bool) (xs : List α) : m (List α) := do
  let stack ← pushAllM less xs.length (leastRun xs.length) ⟨[], worthwhile⟩ xs
  collapseM less stack.threshold stack.waiting

/-- Sorts a list by a comparison without effects. -/
def sort (less : α → α → Bool) (xs : List α) : List α :=
  Id.run (sortM (m := Id) (fun a b => pure (less a b)) xs)

/-- The pairs that sorting compares, in their order. -/
def comparisons (less : α → α → Bool) (xs : List α) : List (α × α) :=
  let noting (a b : α) : StateM (List (α × α)) Bool := do
    modify ((a, b) :: ·)
    return less a b
  ((sortM noting xs).run []).2.reverse

end FamilyStore.Engine.Sort
