import FamilyStore.DataFuncs.Recipe
import FamilyStore.Proofs.Iteration.History
import FamilyStore.Proofs.Kindred

/-!
What becomes of a comparison.

The engine sees whether a comparison is below, at or above zero, and bytewise order where the
comparison fails. So data functions whose comparisons have the same signs cannot be told apart by
what the store replies, and where every comparison fails, iterating gives out what it gives out for
the default data functions. A comparison that escapes is not caught; the engine sees whatever
integer that leaves behind.
-/

namespace FamilyStore

/-! ## Signs -/

namespace DataFuncs

variable {f g : DataFuncs} {a b : Bytes}

/-- No pair of keys can be compared. -/
def NeverRanks (f : DataFuncs) : Prop := ∀ a b, ∃ cause, f.tryRank a b = .error (.failure cause)

theorem compareKeys_of_error {raised : Raised Int32} (h : f.tryRank a b = .error raised) :
    f.compareKeys a b =
      ⟨raised.code a b, raised.events .comparatorFailed, raised.escape?⟩ := by
  unfold compareKeys
  rw [h]

/-- The engine sees bytewise order where a comparison fails. -/
theorem rank_of_failure {cause : Failure} (h : f.tryRank a b = .error (.failure cause)) :
    f.rank a b = Bytes.order a b := by
  unfold rank
  rw [compareKeys_of_error h]
  exact Returned.compare_signCode _

theorem NeverRanks.rank (h : f.NeverRanks) (a b : Bytes) :
    f.rank a b = (Builtin.funcs .default).rank a b := by
  obtain ⟨cause, hf⟩ := h a b
  rw [rank_of_failure hf, rank_builtin]
  rfl

end DataFuncs

namespace Store

/-! ## Families that hold the same -/

variable {s s' : Store} {id id' : FamilyId} {config config' : DataConfig}

/-- Two families with the same map, which the engine sees compared in the same way, select the same
records. -/
theorem Iterable.selected_eq (h : Iterable s id config) (h' : Iterable s' id' config')
    (hrank : ∀ a b, config.funcs.rank a b = config'.funcs.rank a b)
    (hstrict : Engine.StrictlyOrders config.funcs (s.stored id).keys)
    (hmap : s.content id = s'.content id') (span : Span) :
    Engine.selected config.funcs (s.stored id) span =
      Engine.selected config'.funcs (s'.stored id') span :=
  (Engine.selected_eq hstrict h.nodup h'.nodup (get?_of_content hmap) span).trans
    (Engine.selected_congr hrank _ span)

end Store

end FamilyStore
