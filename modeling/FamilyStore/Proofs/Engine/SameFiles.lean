import FamilyStore.Proofs.Engine.Points

/-!
Calls of the engine that leave the files alone.

Only the creation of a database writes a file. All other calls leave every file as it is, whatever
comes of them.
-/

namespace FamilyStore.Engine

/-- No file changes. -/
def SameFiles (e e' : Engine) : Prop := e'.files = e.files

instance : Frame SameFiles where
  refl _ := rfl
  trans h h' := h'.trans h

namespace Run

theorem sameFiles_note (entry : EntryPoint) (subject : Subject) :
    Within SameFiles (note entry subject) := Within.modify fun _ => rfl

theorem sameFiles_takePending (entry : EntryPoint) : Within SameFiles (takePending entry) :=
  fun _ => rfl

theorem sameFiles_newHandle : Within SameFiles newHandle := fun _ => rfl

theorem sameFiles_setRecords (σ : StoreId) (R : Records) : Within SameFiles (setRecords σ R) :=
  Within.modify fun _ => rfl

/-! ## Databases and families -/

theorem sameFiles_configDeinit (h : Handle) : Within SameFiles (configDeinit h) := by
  refine Within.bind (sameFiles_note _ _) fun _ => Within.get_bind fun e => ?_
  rw [run_ite]
  split
  · exact Frame.refl e
  · rfl

theorem sameFiles_close (h : Handle) : Within SameFiles (close h) := by
  refine Within.bind (sameFiles_note _ _) fun _ => Within.get_bind fun e => ?_
  cases e.databases.get? h with
  | none => exact Frame.refl e
  | some d =>
    rw [run_bind, run_require_some]
    dsimp only
    rw [run_ite]
    split
    · exact Frame.refl e
    · rfl

theorem sameFiles_registerThread (h : Handle) : Within SameFiles (registerThread h) :=
  Within.bind (sameFiles_note _ _) fun _ => Within.modify fun _ => rfl

theorem sameFiles_deregisterThread (h : Handle) : Within SameFiles (deregisterThread h) :=
  Within.bind (sameFiles_note _ _) fun _ => Within.modify fun _ => rfl

theorem sameFiles_storeFor (path : String) (index : Nat) :
    Within SameFiles (storeFor path index) := by
  refine Within.get_bind fun e => ?_
  cases e.stores.get? path with
  | none => exact Frame.refl e
  | some byIndex =>
    rw [run_bind, run_require_some]
    dsimp only
    cases byIndex.get? index with
    | none => rfl
    | some σ => rfl

theorem sameFiles_familyCreate (h : Handle) (config : DataRecord) :
    Within SameFiles (familyCreate h config) := by
  refine Within.bind (sameFiles_note _ _) fun _ => Within.get_bind fun e => ?_
  cases e.databases.get? h with
  | none => exact Frame.refl e
  | some d =>
    have hnext : SameFiles e { e with
      databases := e.databases.set h { d with nextFamily := d.nextFamily + 1 } } := rfl
    rw [run_bind, run_require_some]
    dsimp only
    rw [run_bind, run_set]
    refine Frame.trans hnext (Within.bind (sameFiles_storeFor _ _) (fun σ => ?_) _)
    exact Within.bind (Within.modify fun _ => rfl) fun _ => Within.pure _

theorem sameFiles_familyDelete (f : FamilyHandle) : Within SameFiles (familyDelete f) := by
  refine Within.bind (sameFiles_note _ _) fun _ => Within.get_bind fun e => ?_
  cases e.families.get? f with
  | none => exact Frame.refl e
  | some fam =>
    rw [run_bind, run_require_some]
    dsimp only
    rw [run_ite]
    split
    · exact Frame.refl e
    · rfl

/-! ## Records -/

theorem sameFiles_insert (f : FamilyHandle) (key value : Span) :
    Within SameFiles (insert f key value) := by
  refine Within.bind (sameFiles_note _ _) fun _ => Within.bind (within_family f) fun fam => ?_
  refine Within.bind (sameFiles_takePending _) fun status => Within.ite (Within.pure _) ?_
  refine Within.ite (Within.pure _) (Within.bind Within.get fun e => ?_)
  exact Within.bind (sameFiles_setRecords _ _) fun _ => Within.pure _

theorem sameFiles_merge (fam : Family) (key : Bytes) (acc : Handle) :
    Within SameFiles (merge fam key acc) := by
  intro e
  cases ha : e.accumulators.get? acc with
  | none =>
    unfold merge
    rw [run_bind, run_get]
    dsimp only
    rw [ha]
    exact Frame.refl e
  | some accumulator =>
    rw [run_merge ha rfl]
    dsimp only
    split
    · rfl
    · rfl

theorem sameFiles_update (f : FamilyHandle) (key delta : Span) :
    Within SameFiles (update f key delta) := by
  refine Within.bind (sameFiles_note _ _) fun _ => Within.bind (within_family f) fun fam => ?_
  refine Within.bind (sameFiles_takePending _) fun status => Within.ite (Within.pure _) ?_
  refine Within.ite (Within.pure _) (Within.bind sameFiles_newHandle fun acc => ?_)
  refine Within.bind (Within.modify fun _ => rfl) fun _ => Within.bind (sameFiles_merge _ _ _) ?_
  exact fun result => Within.bind (Within.modify fun _ => rfl) fun _ => Within.pure _

theorem sameFiles_delete (f : FamilyHandle) (key : Span) : Within SameFiles (delete f key) := by
  refine Within.bind (sameFiles_note _ _) fun _ => Within.bind (within_family f) fun fam => ?_
  refine Within.bind (sameFiles_takePending _) fun status => Within.ite (Within.pure _) ?_
  refine Within.bind Within.get fun e => ?_
  exact Within.bind (sameFiles_setRecords _ _) fun _ => Within.pure _

/-! ## Lookups -/

theorem sameFiles_lookupInit (f : FamilyHandle) (address : Nat) :
    Within SameFiles (lookupInit f address) := by
  refine Within.bind (sameFiles_note _ _) fun _ => Within.bind (within_family f) fun _ => ?_
  refine Within.get_bind fun e => ?_
  rw [run_ite]
  split
  · exact Frame.refl e
  · rfl

theorem sameFiles_lookup (f : FamilyHandle) (key : Span) (address : Nat) :
    Within SameFiles (lookup f key address) := by
  refine Within.bind (sameFiles_note _ _) fun _ => Within.bind (within_family f) fun fam => ?_
  refine Within.bind Within.get fun e => Within.bind (within_require _) fun _ => ?_
  refine Within.bind (sameFiles_takePending _) fun status => Within.ite (Within.pure _) ?_
  cases (e.recordsOf fam.store).get? key.read with
  | none => exact Within.pure _
  | some value => exact Within.bind (Within.modify fun _ => rfl) fun _ => Within.pure _

theorem sameFiles_lookupFound (address : Nat) : Within SameFiles (lookupFound address) := by
  refine Within.bind (sameFiles_note _ _) fun _ => Within.bind Within.get fun e => ?_
  exact Within.bind (within_require _) fun _ => Within.pure _

theorem sameFiles_lookupValue (address : Nat) : Within SameFiles (lookupValue address) := by
  refine Within.bind (sameFiles_note _ _) fun _ => Within.bind Within.get fun e => ?_
  refine Within.bind (within_require _) fun found => ?_
  refine Within.bind (sameFiles_takePending _) fun status => Within.ite (Within.pure _) ?_
  exact Within.bind (within_require _) fun _ => Within.pure _

theorem sameFiles_lookupDeinit (address : Nat) : Within SameFiles (lookupDeinit address) := by
  refine Within.bind (sameFiles_note _ _) fun _ => Within.get_bind fun e => ?_
  cases e.lookups.get? address with
  | none => exact Frame.refl e
  | some _ => rfl

/-! ## Cursors -/

theorem sameFiles_cursor (h : Handle) : Within SameFiles (cursor h) :=
  Within.bind Within.get fun _ => within_require _

theorem sameFiles_releaseCurrent (c : Cursor) : Within SameFiles (releaseCurrent c) := by
  unfold releaseCurrent
  cases c.current with
  | none => exact Within.pure _
  | some a => exact Within.modify fun _ => rfl

theorem sameFiles_iteratorInit (f : FamilyHandle) (start : Span) :
    Within SameFiles (iteratorInit f start) := by
  refine Within.bind (sameFiles_note _ _) fun _ => Within.bind (within_family f) fun fam => ?_
  refine Within.bind (sameFiles_takePending _) fun status => Within.ite (Within.pure _) ?_
  refine Within.bind Within.get fun e => Within.bind sameFiles_newHandle fun h => ?_
  exact Within.bind (Within.modify fun _ => rfl) fun _ => Within.pure _

theorem sameFiles_iteratorValid (h : Handle) : Within SameFiles (iteratorValid h) := by
  refine Within.bind (sameFiles_note _ _) fun _ => Within.bind (sameFiles_cursor h) fun c => ?_
  exact Within.ite (Within.bind (Within.modify fun _ => rfl) fun _ => Within.pure _)
    (Within.pure _)

theorem sameFiles_iteratorNext (h : Handle) : Within SameFiles (iteratorNext h) := by
  refine Within.bind (sameFiles_note _ _) fun _ => Within.bind (sameFiles_cursor h) fun c => ?_
  exact Within.bind (sameFiles_releaseCurrent c) fun _ => Within.modify fun _ => rfl

theorem sameFiles_lend (h : Handle) (c : Cursor) (r : Record) : Within SameFiles (lend h c r) := by
  unfold lend
  cases c.current with
  | some a => exact Within.pure _
  | none => exact Within.get_bind fun e => rfl

theorem sameFiles_iteratorGetCurrent (h : Handle) : Within SameFiles (iteratorGetCurrent h) := by
  refine Within.bind (sameFiles_note _ _) fun _ => Within.bind (sameFiles_cursor h) fun c => ?_
  cases c.records[c.position]? with
  | none => exact within_refuse _
  | some r => exact Within.bind (sameFiles_lend h c r) fun _ => Within.pure _

theorem sameFiles_iteratorStatus (h : Handle) : Within SameFiles (iteratorStatus h) :=
  Within.bind (sameFiles_note _ _) fun _ => Within.bind (sameFiles_cursor h) fun _ => Within.pure _

theorem sameFiles_iteratorDeinit (h : Handle) : Within SameFiles (iteratorDeinit h) := by
  refine Within.bind (sameFiles_note _ _) fun _ => Within.bind (sameFiles_cursor h) fun c => ?_
  exact Within.bind (Within.modify fun _ => rfl) fun _ => sameFiles_releaseCurrent c

end Run

end FamilyStore.Engine
