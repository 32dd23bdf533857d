import FamilyStore.Proofs.Accounts.Balance
import FamilyStore.Proofs.Iteration.Staleness
import FamilyStore.Proofs.Iteration.Tracking

/-!
The end of an iterator.

The engine takes the cursor of an iterator back when the iterator is closed, not before and never
again. Only a view that is held keeps an iterator from being closed, and only an iterator that is at
a record has views.
-/

namespace FamilyStore.Store

variable {s : Store} {i : IteratorId} {it : Iterator} {h : Engine.Handle} {c : Engine.Cursor}

/-- The call that gives a cursor back. -/
def deinit (h : Engine.Handle) : Engine.Call := ⟨.iteratorDeinit, .handle h⟩

theorem Reachable.cursorsBalanced (hs : Reachable s) : CursorsBalanced s := by
  obtain ⟨n, hb⟩ := hs.balanced
  exact hb.cursors

theorem mem_subjects_of_mem_calls {e : Engine} {call : Engine.Call} (hm : call ∈ e.calls) :
    call.subject ∈ e.subjects call.entry :=
  List.mem_map.2 ⟨call, List.mem_filter.2 ⟨hm, decide_eq_true rfl⟩, rfl⟩

/-- A cursor that the engine has was not given back. -/
theorem CursorsBalanced.deinit_not_mem (hb : CursorsBalanced s)
    (hc : s.engine.cursors.get? h = some c) : deinit h ∉ s.engine.calls := by
  intro hm
  obtain ⟨g, hg, -, hgone⟩ := hb.gone _ (mem_subjects_of_mem_calls hm)
  obtain rfl := Engine.Subject.handle.inj hg
  exact hgone (Table.mem_keys_of_get? hc)

/-- A call whose subjects are told apart was made once at the most. -/
theorem count_le_of_nodup {e : Engine} {entry : Engine.EntryPoint}
    (hn : (e.subjects entry).Nodup) (x : Engine.Subject) : e.calls.count ⟨entry, x⟩ ≤ 1 := by
  have hfilter := List.count_filter (l := e.calls) (a := (⟨entry, x⟩ : Engine.Call))
    (p := fun c => decide (c.entry = entry)) (decide_eq_true rfl)
  rw [← hfilter]
  exact Nat.le_trans (List.count_le_count_map) (List.nodup_iff_count.1 hn _)

/-- No cursor is given back twice. -/
theorem CursorsBalanced.count_deinit (hb : CursorsBalanced s) (h : Engine.Handle) :
    s.engine.calls.count (deinit h) ≤ 1 := count_le_of_nodup hb.once _

/-- To close an iterator gives its cursor back: for the first time, and for the last. -/
structure ClosesOnce (s : Store) (i : IteratorId) (h : Engine.Handle) : Prop where
  reply : (s.perform (.closeIterator i)).1 = .ok .done
  isClosed : (s.perform (.closeIterator i)).2.isOpen i = false
  before : deinit h ∉ s.engine.calls
  calls : (s.perform (.closeIterator i)).2.engine.calls = deinit h :: s.engine.calls
  once : ∀ ops, ((s.perform (.closeIterator i)).2.after ops).engine.calls.count (deinit h) ≤ 1

theorem closesOnce_of_free (hs : Reachable s) (hi : s.iterators.get? i = some it)
    (hh : it.cursor = some h) (hfree : s.isStuck it = false) : ClosesOnce s i h := by
  obtain ⟨c, hc, -, -⟩ := hs.sound.exists_cursor hi hh
  have hrun := Run.run_closeIterator hi hh hc
  rw [hfree, if_neg Bool.false_ne_true] at hrun
  have hperform : s.perform (.closeIterator i) = _ := perform_eq (f := fun _ => .done) rfl hrun
  refine ⟨?_, ?_, hs.cursorsBalanced.deinit_not_mem hc, ?_, fun ops => ?_⟩
  · rw [hperform]
    rfl
  · rw [hperform]
    have ht := hs.of_run (.closeIterator i) (f := fun _ => .done) rfl hrun
    exact isOpen_eq_false ht.sound (course?_of_closed (Table.get?_set_self _ _ _) rfl)
  · rw [hperform]
    rfl
  · exact ((hs.step _).after ops).cursorsBalanced.count_deinit h

/-- An iterator that is at no record has no views, so nothing holds it up. -/
theorem isStuck_of_not_positioned (hs : Sound s) (hi : s.iterators.get? i = some it)
    (hh : it.cursor = some h) (hn : it.positioned = false) : s.isStuck it = false := by
  obtain ⟨c, hc, hstep, -⟩ := hs.exists_cursor hi hh
  rw [isStuck, hstep.views hn]
  rfl

/-- A record that its iterator does not lend any more cannot be read. -/
theorem refuses_of_not_lent (hs : Sound s) {ρ : RecordId} {r : Record}
    (hr : s.records.get? ρ = some r)
    (hn : ∀ it, s.iterators.get? r.iterator = some it → ¬ Lends s it r) : Refuses s ρ := by
  obtain ⟨it, hi, hle, hlends⟩ := hs.placed ρ r hr
  have hne : r.generation ≠ it.generation := fun hg => hn it hi (hlends hg)
  have hstale : Stale s ρ r.iterator := ⟨r, it, hr, rfl, hi, Nat.lt_of_le_of_ne hle hne⟩
  exact hstale.refuses

/-! ## Views that are exported -/

/-- Other objects hold on to the bytes of a view. -/
def isExported (s : Store) (v : ViewId) : Bool :=
  (s.views.get? v).any fun vw => !vw.released && decide (0 < vw.holders)

/-- An iterator keeps track of a view that is exported. -/
def isHeld (s : Store) (i : IteratorId) : Bool :=
  (s.iterators.get? i).any fun it => it.views.any s.isExported

/-- Views that an iterator keeps track of hold it up exactly when they are exported. -/
theorem Tracked.isHeld (ht : Tracked s) (hi : s.iterators.get? i = some it) :
    s.isHeld i = s.isStuck it := by
  unfold Store.isHeld isStuck
  rw [hi, Option.any_some]
  refine Bool.eq_iff_iff.2 ?_
  rw [List.any_eq_true, List.any_eq_true]
  refine exists_congr fun v => and_congr_right fun hv => ?_
  obtain ⟨vw, hw, -⟩ := ht.views hi hv
  rw [isExported, holdsUp, hw]
  rfl

end FamilyStore.Store
