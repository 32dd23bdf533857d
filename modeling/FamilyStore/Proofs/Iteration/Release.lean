import Mathlib.Data.List.TakeWhile
import FamilyStore.Proofs.ClosedDatabase

/-!
What is left when an iterator releases the views of its record.

The views are released from the newest on, up to the first one that is held. If none is held, the
iterator leaves its record or is closed. Otherwise nothing has happened but that some views which
nobody holds are released and no longer kept track of.
-/

namespace FamilyStore.Store

variable {s : Store} {i : IteratorId} {it : Iterator} {h : Engine.Handle} {c : Engine.Cursor}

/-- A released view. -/
def View.release (v : View) : View := { v with released := true }

/-- A table of views of which some have been released. -/
def releasing (t : Table ViewId View) (vs : List ViewId) : Table ViewId View :=
  vs.foldl (fun t v => t.modify v View.release) t

/-- The views that come before the first one that is held. -/
def loose (s : Store) (vs : List ViewId) : List ViewId := vs.takeWhile fun v => !s.holdsUp v

/-- The views from the first one on that is held. -/
def fast (s : Store) (vs : List ViewId) : List ViewId := vs.dropWhile fun v => !s.holdsUp v

/-- The store when an iterator has released the views that it can. -/
def loosened (s : Store) (i : IteratorId) (it : Iterator) : Store :=
  { s with
    views := releasing s.views (s.loose it.views)
    iterators := s.iterators.set i { it with views := s.fast it.views } }

theorem get?_modify (t : Table ViewId View) (v w : ViewId) :
    (t.modify v View.release).get? w =
      (t.get? w).map fun vw => if w = v then vw.release else vw := by
  unfold Table.modify
  cases hv : t.get? v with
  | none =>
    by_cases hwv : w = v
    · rw [hwv, hv]
      rfl
    · simp [hwv]
  | some vw =>
    dsimp only
    rw [Table.get?_set]
    by_cases hwv : w = v
    · rw [if_pos hwv, hwv, hv, Option.map_some, if_pos rfl]
    · simp [hwv]

/-- What becomes of each view when some are released. -/
theorem get?_releasing (t : Table ViewId View) (vs : List ViewId) (w : ViewId) :
    (releasing t vs).get? w =
      (t.get? w).map fun vw => if w ∈ vs then vw.release else vw := by
  induction vs generalizing t with
  | nil => simp [releasing]
  | cons v vs ih =>
    show (releasing (t.modify v View.release) vs).get? w = _
    rw [ih, get?_modify, Option.map_map]
    congr 1
    funext vw
    by_cases hwv : w = v
    · simp [hwv, View.release]
    · simp [hwv]

theorem loose_append_fast (s : Store) (vs : List ViewId) : s.loose vs ++ s.fast vs = vs :=
  List.takeWhile_append_dropWhile

/-- A view that comes before the first held one is not held. -/
theorem holdsUp_of_mem_loose {vs : List ViewId} {v : ViewId} (hv : v ∈ s.loose vs) :
    s.holdsUp v = false := by
  simpa using List.mem_takeWhile_imp hv

/-- What is released was not held, and the rest is as before. -/
theorem holdsUp_loosened (s : Store) (i : IteratorId) (it : Iterator) (w : ViewId) :
    (s.loosened i it).holdsUp w = s.holdsUp w := by
  have hview : (s.loosened i it).views.get? w = _ := get?_releasing s.views _ w
  by_cases hm : w ∈ s.loose it.views
  · have hfree := holdsUp_of_mem_loose hm
    rw [hfree]
    unfold holdsUp at hfree ⊢
    rw [hview]
    cases hw : s.views.get? w with
    | none => simp [hw] at hfree
    | some vw => simp [hm, View.release]
  · unfold holdsUp
    rw [hview]
    simp [hm]

/-- Nothing is left exactly when no view is held. -/
theorem fast_of_not_stuck (h : s.isStuck it = false) : s.fast it.views = [] := by
  unfold isStuck at h
  unfold fast
  rw [List.dropWhile_eq_nil_iff]
  intro v hv
  simpa using List.any_eq_false.1 h v hv

/-- What is left begins with the held view. -/
theorem any_fast_of_stuck (h : s.isStuck it = true) : (s.fast it.views).any s.holdsUp = true := by
  obtain ⟨v, hv, hheld⟩ := List.any_eq_true.1 h
  refine List.any_eq_true.2 ⟨v, ?_, hheld⟩
  rw [← s.loose_append_fast it.views] at hv
  refine (List.mem_append.1 hv).resolve_left fun hm => ?_
  exact absurd (hheld.symm.trans (holdsUp_of_mem_loose hm)) (Ne.symm Bool.false_ne_true)

namespace Run

theorem run_releaseView_of_holdsUp {v : ViewId} (hv : s.holdsUp v = false) :
    (releaseView v).run s = (.ok (), { s with views := s.views.modify v View.release }) := by
  obtain ⟨t, hrun, -⟩ := releaseView_of_not_holdsUp hv
  rcases releaseView_cases v s with ⟨failure, hrun'⟩ | ⟨vw, hw, hrun'⟩
  · rw [hrun] at hrun'
    exact absurd hrun'.symm error_ne_ok
  · rw [hrun', Table.modify, hw]
    rfl

/-- The views of an iterator are released up to the first one that is held. -/
theorem run_releaseViews (vs : List ViewId) : ∀ {s : Store} {it : Iterator},
    s.iterators.get? i = some it → it.views = vs →
    (releaseViews i vs).run s =
      (if s.isStuck it then .error heldUp else .ok (), s.loosened i it) := by
  induction vs with
  | nil =>
    intro s it hi hvs
    unfold loosened isStuck
    rw [hvs]
    have hsame : s.iterators.set i { it with views := [] } = s.iterators := by
      rw [← hvs]
      exact Table.set_of_get? hi
    show _ = (Except.ok (), { s with iterators := s.iterators.set i { it with views := [] } })
    rw [hsame]
    rfl
  | cons v rest ih =>
    intro s it hi hvs
    unfold releaseViews
    rw [run_bind, run_outcome]
    dsimp only
    cases hv : s.holdsUp v with
    | true =>
      obtain ⟨failure, hrun⟩ := releaseView_of_holdsUp hv
      have hstuck : s.isStuck it = true := by
        rw [isStuck, hvs, List.any_cons, hv]
        rfl
      have hnone : s.loose it.views = [] := by
        rw [hvs, loose, List.takeWhile_cons_of_neg (by simp [hv])]
      have hall : s.fast it.views = it.views := by
        rw [hvs, fast, List.dropWhile_cons_of_neg (by simp [hv])]
      rw [hrun, hstuck, if_pos rfl, loosened, hnone, hall]
      rw [Table.set_of_get? hi]
      rfl
    | false =>
      have hrun := run_releaseView_of_holdsUp hv
      have hsame : ∀ w, holdsUp { s with views := s.views.modify v View.release } w =
          s.holdsUp w := by
        obtain ⟨t, hrun', hothers⟩ := releaseView_of_not_holdsUp hv
        rw [hrun] at hrun'
        have hviews : s.views.modify v View.release = t :=
          congrArg (fun p => p.2.views) hrun'
        rw [hviews]
        exact hothers
      rw [hrun]
      dsimp only
      rw [run_bind, run_iterator (s := { s with views := s.views.modify v View.release }) hi]
      dsimp only
      rw [run_bind]
      have hrest : ({ it with views := rest } : Iterator).views = rest := rfl
      refine (ih (Table.get?_set_self _ _ _) hrest).trans ?_
      have hholds : Store.holdsUp { s with
          views := s.views.modify v View.release
          iterators := s.iterators.set i { it with views := rest } } = s.holdsUp :=
        funext hsame
      unfold isStuck loosened loose fast
      dsimp only
      rw [hholds, hvs, List.any_cons, hv, Bool.false_or,
        List.takeWhile_cons_of_pos (by simp [hv]), List.dropWhile_cons_of_pos (by simp [hv]),
        Table.set_set]
      rfl

/-! ## Leaving a record, and closing -/

theorem iterators_loosened (s : Store) (i : IteratorId) (it : Iterator) :
    (s.loosened i it).iterators.get? i = some { it with views := s.fast it.views } :=
  Table.get?_set_self _ _ _

/-- A record is left once no view of it is held. -/
theorem run_leaveRecord (hi : s.iterators.get? i = some it)
    (hc : s.engine.cursors.get? h = some c) : (leaveRecord i h).run s =
      if s.isStuck it then (.error heldUp, s.loosened i it)
      else (.ok (), Sound.leftRecord (s.loosened i it) i { it with views := [] } h c) := by
  unfold leaveRecord
  rw [run_bind, run_iterator hi]
  dsimp only
  rw [run_bind, run_releaseViews it.views hi rfl]
  cases hstuck : s.isStuck it with
  | true => rfl
  | false =>
    have hnow := iterators_loosened s i it
    rw [fast_of_not_stuck hstuck] at hnow
    rw [if_neg Bool.false_ne_true, if_neg Bool.false_ne_true]
    dsimp only
    rw [run_bind, run_iterator hnow]
    dsimp only
    unfold setIterator
    rw [run_bind, run_modify]
    dsimp only
    rw [run_engine]
    dsimp only
    rw [Engine.Run.run_iteratorNext (e := (s.loosened i it).engine) hc]
    rfl

/-- An iterator is closed once no view of its record is held. -/
theorem run_closeIterator (hi : s.iterators.get? i = some it) (hh : it.cursor = some h)
    (hc : s.engine.cursors.get? h = some c) : (closeIterator i).run s =
      if s.isStuck it then (.error heldUp, s.loosened i it)
      else (.ok (), Sound.shut (s.loosened i it) i { it with views := [] } h c) := by
  unfold closeIterator
  rw [run_bind, run_iterator hi]
  dsimp only
  rw [hh]
  dsimp only
  rw [run_bind, run_releaseViews it.views hi rfl]
  cases hstuck : s.isStuck it with
  | true => rfl
  | false =>
    have hnow := iterators_loosened s i it
    rw [fast_of_not_stuck hstuck] at hnow
    rw [if_neg Bool.false_ne_true, if_neg Bool.false_ne_true]
    dsimp only
    rw [run_bind, run_iterator hnow]
    dsimp only
    unfold setIterator
    rw [run_bind, run_modify]
    dsimp only
    rw [run_engine]
    dsimp only
    rw [Engine.Run.run_iteratorDeinit (e := (s.loosened i it).engine) hc]
    rfl

theorem run_closeIterator_of_closed (hi : s.iterators.get? i = some it) (hn : it.cursor = none) :
    (closeIterator i).run s = (.ok (), s) := by
  unfold closeIterator
  rw [run_bind, run_iterator hi]
  dsimp only
  rw [hn]
  rfl

end Run

/-- To release what can be released is a move. -/
theorem Sound.loosened (hs : Sound s) (hi : s.iterators.get? i = some it)
    (hh : it.cursor = some h) : Move s (s.loosened i it) := by
  obtain ⟨r, t, rest, hrun, hmove, -⟩ := Run.releaseViews_spec it.views hs hi hh rfl
  rw [Run.run_releaseViews it.views hi rfl] at hrun
  have hstore : s.loosened i it = _ := congrArg Prod.snd hrun
  rw [hstore]
  exact hmove

end FamilyStore.Store
