import FamilyStore.Proofs.Engine.Points
import FamilyStore.Proofs.Engine.Requests

/-!
Statuses that are set up, and the calls that take them.

A call takes the status of its own entry point and of no other. If that is a failure the call
reports it, and nothing else has happened.
-/

namespace FamilyStore.Engine

/-- At the most the statuses of some entry points are taken. -/
def Spends (entries : List EntryPoint) (e e' : Engine) : Prop :=
  ∀ x, x ∉ entries → e'.pending.get? x = e.pending.get? x

instance {entries : List EntryPoint} : Frame (Spends entries) where
  refl _ _ _ := rfl
  trans h h' x hx := (h' x hx).trans (h x hx)

theorem Spends.of_eq {entries : List EntryPoint} {e e' : Engine} (h : e'.pending = e.pending) :
    Spends entries e e' := fun _ _ => by rw [h]

namespace Run

variable {entries : List EntryPoint} {e : Engine} {f : FamilyHandle} {fam : Family}

theorem spends_note (entry : EntryPoint) (subject : Subject) :
    Within (Spends entries) (note entry subject) :=
  Within.modify fun _ => .of_eq rfl

theorem spends_takePending {entry : EntryPoint} (h : entry ∈ entries) :
    Within (Spends entries) (takePending entry) := by
  intro e x hx
  have hne : x ≠ entry := fun heq => hx (heq ▸ h)
  rw [run_takePending, Table.get?_erase, if_neg hne]

theorem spends_newHandle : Within (Spends entries) newHandle := fun _ => .of_eq rfl

theorem spends_setRecords (σ : StoreId) (R : Records) :
    Within (Spends entries) (setRecords σ R) :=
  Within.modify fun _ => .of_eq rfl

/-! ## Writing, removing and updating -/

theorem spends_insert (h : .insert ∈ entries) (f : FamilyHandle) (key value : Span) :
    Within (Spends entries) (insert f key value) := by
  refine Within.bind (spends_note _ _) fun _ => Within.bind (within_family f) fun fam => ?_
  refine Within.bind (spends_takePending h) fun status => Within.ite (Within.pure _) ?_
  refine Within.ite (Within.pure _) (Within.bind Within.get fun e => ?_)
  exact Within.bind (spends_setRecords _ _) fun _ => Within.pure _

theorem spends_delete (h : .delete ∈ entries) (f : FamilyHandle) (key : Span) :
    Within (Spends entries) (delete f key) := by
  refine Within.bind (spends_note _ _) fun _ => Within.bind (within_family f) fun fam => ?_
  refine Within.bind (spends_takePending h) fun status => Within.ite (Within.pure _) ?_
  refine Within.bind Within.get fun e => ?_
  exact Within.bind (spends_setRecords _ _) fun _ => Within.pure _

theorem spends_merge (fam : Family) (key : Bytes) (acc : Handle) :
    Within (Spends entries) (merge fam key acc) := by
  intro e
  cases ha : e.accumulators.get? acc with
  | none =>
    unfold merge
    rw [run_bind, run_get]
    dsimp only
    rw [ha]
    exact Frame.refl e
  | some a =>
    rw [run_merge ha rfl]
    dsimp only
    split
    · exact .of_eq rfl
    · exact .of_eq rfl

theorem spends_update (h : .update ∈ entries) (f : FamilyHandle) (key delta : Span) :
    Within (Spends entries) (update f key delta) := by
  refine Within.bind (spends_note _ _) fun _ => Within.bind (within_family f) fun fam => ?_
  refine Within.bind (spends_takePending h) fun status => Within.ite (Within.pure _) ?_
  refine Within.ite (Within.pure _) (Within.bind spends_newHandle fun acc => ?_)
  refine Within.bind (Within.modify fun _ => .of_eq rfl) fun _ => ?_
  refine Within.bind (spends_merge _ _ _) fun result => ?_
  exact Within.bind (Within.modify fun _ => .of_eq rfl) fun _ => Within.pure _

/-- Writing fails as it was set up to. -/
theorem insert_of_pending (hs : Serves e f fam)
    (hp : pendingStatus e .insert ≠ Status.success) (key value : Span) :
    (insert f key value).run e = (.ok (pendingStatus e .insert), asked e .insert f) := by
  unfold insert
  rw [run_asked hs, run_ite, if_pos hp]
  rfl

theorem delete_of_pending (hs : Serves e f fam)
    (hp : pendingStatus e .delete ≠ Status.success) (key : Span) :
    (delete f key).run e = (.ok (pendingStatus e .delete), asked e .delete f) := by
  unfold delete
  rw [run_asked hs, run_ite, if_pos hp]
  rfl

theorem update_of_pending (hs : Serves e f fam)
    (hp : pendingStatus e .update ≠ Status.success) (key delta : Span) :
    (update f key delta).run e = (.ok (pendingStatus e .update, []), asked e .update f) := by
  unfold update
  rw [run_asked hs, run_ite, if_pos hp]
  rfl

/-! ## Starting an iteration -/

theorem spends_iteratorInit (h : .iteratorInit ∈ entries) (f : FamilyHandle) (start : Span) :
    Within (Spends entries) (iteratorInit f start) := by
  refine Within.bind (spends_note _ _) fun _ => Within.bind (within_family f) fun fam => ?_
  refine Within.bind (spends_takePending h) fun status => Within.ite (Within.pure _) ?_
  refine Within.bind Within.get fun e => Within.bind spends_newHandle fun h => ?_
  exact Within.bind (Within.modify fun _ => .of_eq rfl) fun _ => Within.pure _

/-! ## Looking up -/

/-- A lookup takes a status, and notes what it found where there is none. -/
theorem run_lookup_eq (hs : Serves e f fam) (key : Span) {address : Nat}
    (ha : e.lookups.get? address = some none) : (lookup f key address).run e =
      let e' := { e with
        calls := ⟨.lookup, .lookup address⟩ :: e.calls
        pending := e.pending.erase .lookup }
      if pendingStatus e .lookup ≠ Status.success then (.ok (pendingStatus e .lookup), e')
      else (.ok Status.success, { e' with
        lookups := e.lookups.set address ((e.recordsOf fam.store).get? key.read) }) := by
  have hs' : Serves { e with calls := ⟨.lookup, .lookup address⟩ :: e.calls } f fam := hs
  unfold lookup
  rw [run_bind, run_note]
  dsimp only
  rw [run_bind, run_family hs']
  dsimp only
  rw [run_bind, run_get]
  dsimp only
  rw [ha, run_bind, run_require_some]
  dsimp only
  rw [run_bind, run_takePending]
  dsimp only
  rw [run_ite]
  congr 1
  have hrecords : ({ e with calls := ⟨.lookup, .lookup address⟩ :: e.calls } : Engine).recordsOf
      fam.store = e.recordsOf fam.store := rfl
  rw [hrecords]
  cases (e.recordsOf fam.store).get? key.read with
  | none =>
    rw [Table.set_of_get? ha]
    rfl
  | some value => rfl

/-- The value that was found is given unless a status is taken. -/
theorem run_lookupValue_eq {address : Nat} {value : Bytes}
    (ha : e.lookups.get? address = some (some value)) : (lookupValue address).run e =
      (.ok (if pendingStatus e .lookupValue ≠ Status.success then
        .error (pendingStatus e .lookupValue) else .ok value), { e with
          calls := ⟨.lookupValue, .lookup address⟩ :: e.calls
          pending := e.pending.erase .lookupValue }) := by
  by_cases hp : pendingStatus e .lookupValue = Status.success
  · rw [if_neg (not_not_intro hp), run_lookupValue ha hp]
  · unfold lookupValue
    rw [run_bind, run_note]
    dsimp only
    rw [run_bind, run_get]
    dsimp only
    rw [ha, run_bind, run_require_some]
    dsimp only
    rw [run_bind, run_takePending]
    dsimp only
    have hstop : pendingStatus { e with calls := ⟨.lookupValue, .lookup address⟩ :: e.calls }
        .lookupValue ≠ Status.success := hp
    rw [run_ite, if_pos hstop, if_pos hp]
    rfl

end Run

end FamilyStore.Engine
