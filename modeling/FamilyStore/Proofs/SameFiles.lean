import FamilyStore.Proofs.Engine.SameFiles
import FamilyStore.Proofs.SameHandles

/-!
Operations that leave the files alone.

Files change from outside, and when a database is created. Nothing else that is done with handles,
iterators, records or views touches a file: closing a database in particular does not.
-/

namespace FamilyStore.Store

/-- No file changes. -/
def SameFiles (s s' : Store) : Prop := s'.engine.files = s.engine.files

instance : Frame SameFiles where
  refl _ := rfl
  trans h h' := h'.trans h

namespace Run

theorem sameFiles_engine {α : Type} {work : Engine.Run α} (h : Within Engine.SameFiles work) :
    Within SameFiles (engine work) :=
  within_engine (fun _ _ h => h) h

theorem sameFiles_note (events : List Event) : Within SameFiles (note events) :=
  Within.modify fun _ => rfl

theorem sameFiles_setIterator (id : IteratorId) (i : Iterator) :
    Within SameFiles (setIterator id i) := Within.modify fun _ => rfl

theorem sameFiles_setView (id : ViewId) (v : View) : Within SameFiles (setView id v) :=
  Within.modify fun _ => rfl

theorem sameFiles_setFamily (id : FamilyId) (f : Family) : Within SameFiles (setFamily id f) :=
  Within.modify fun _ => rfl

/-! ## Databases -/

theorem sameFiles_register (id : DatabaseId) : Within SameFiles (register id) :=
  Within.bind (within_openDatabase id) fun _ =>
    sameFiles_engine (Engine.Run.sameFiles_registerThread _)

theorem sameFiles_deregister (id : DatabaseId) : Within SameFiles (deregister id) :=
  Within.bind (within_openDatabase id) fun _ =>
    sameFiles_engine (Engine.Run.sameFiles_deregisterThread _)

theorem sameFiles_createFamily (id : DatabaseId) (funcs : FuncsArgument) (maxKeySize : Value) :
    Within SameFiles (createFamily id funcs maxKeySize) := by
  refine Within.bind (within_openDatabase id) fun r => Within.bind (within_ofExcept _) fun fs => ?_
  refine Within.bind (within_ofExcept _) fun config => ?_
  refine Within.bind (sameFiles_engine (Engine.Run.sameFiles_familyCreate _ _)) fun family => ?_
  refine Within.bind (sameFiles_note _) fun _ => ?_
  exact Within.bind Within.get fun s => Within.bind (sameFiles_setFamily _ _) fun _ => Within.pure _

theorem sameFiles_closeDatabase (id : DatabaseId) : Within SameFiles (closeDatabase id) := by
  refine Within.bind (within_database id) fun d => Within.bind (Within.modify fun _ => rfl) ?_
  intro _
  cases d.phase with
  | fresh | closed => exact Within.pure _
  | opened h k =>
    refine Within.bind (sameFiles_engine (Engine.Run.sameFiles_close h)) fun _ => ?_
    refine Within.bind (sameFiles_engine (Engine.Run.sameFiles_configDeinit k)) fun _ => ?_
    cases d.site with
    | some site => exact sameFiles_note _
    | none => exact Within.pure _

/-! ## Point calls -/

theorem sameFiles_insert (id : FamilyId) (key value : Value) :
    Within SameFiles (insert id key value) := by
  refine Within.bind (within_openFamily id) fun r => Within.bind (within_keySpan _ _) fun k => ?_
  refine Within.bind (within_valueSpan _) fun v => ?_
  exact Within.bind (sameFiles_engine (Engine.Run.sameFiles_insert _ _ _)) fun _ =>
    within_checkStatus _ _

theorem sameFiles_update (id : FamilyId) (key delta : Value) :
    Within SameFiles (update id key delta) := by
  refine Within.bind (within_openFamily id) fun r => Within.bind (within_keySpan _ _) fun k => ?_
  refine Within.bind (within_valueSpan _) fun d => ?_
  refine Within.bind (sameFiles_engine (Engine.Run.sameFiles_update _ _ _)) fun result => ?_
  exact Within.bind (sameFiles_note _) fun _ => within_checkStatus _ _

theorem sameFiles_delete (id : FamilyId) (key : Value) : Within SameFiles (delete id key) := by
  refine Within.bind (within_openFamily id) fun r => Within.bind (within_keySpan _ _) fun k => ?_
  exact Within.bind (sameFiles_engine (Engine.Run.sameFiles_delete _ _)) fun _ =>
    within_checkStatus _ _

theorem sameFiles_lookupIn (fh : Engine.FamilyHandle) (key : Span) (address : Nat) :
    Within SameFiles (lookupIn fh key address) := by
  refine Within.bind (sameFiles_engine (Engine.Run.sameFiles_lookup _ _ _)) fun status => ?_
  refine Within.bind (within_checkStatus _ _) fun _ => ?_
  refine Within.bind (sameFiles_engine (Engine.Run.sameFiles_lookupFound _)) fun found => ?_
  refine Within.ite ?_ (Within.pure _)
  refine Within.bind (sameFiles_engine (Engine.Run.sameFiles_lookupValue _)) fun result => ?_
  cases result with
  | ok value => exact Within.pure _
  | error status => exact Within.throw _

theorem sameFiles_lookup (id : FamilyId) (key : Value) : Within SameFiles (lookup id key) := by
  refine Within.bind (within_openFamily id) fun r => Within.bind (within_keySpan _ _) fun k => ?_
  refine Within.bind Within.get fun s => ?_
  refine Within.bind (sameFiles_engine (Engine.Run.sameFiles_lookupInit _ _)) fun _ => ?_
  exact within_ensuring (sameFiles_lookupIn _ _ _)
    (sameFiles_engine (Engine.Run.sameFiles_lookupDeinit _))

theorem sameFiles_point (id : FamilyId) (call : PointCall) :
    Within SameFiles (call.run id) := by
  cases call with
  | insert key value => exact Within.map (sameFiles_insert id key value) _
  | update key delta => exact Within.map (sameFiles_update id key delta) _
  | delete key => exact Within.map (sameFiles_delete id key) _
  | lookup key => exact Within.map (sameFiles_lookup id key) _
  | get key default =>
    refine Within.map (Within.bind (sameFiles_lookup id key) fun found => ?_) _
    cases found with
    | some value => exact Within.pure _
    | none => exact Within.pure _
  | contains key =>
    refine Within.map ?_ _
    unfold contains
    split
    · exact Within.bind (sameFiles_lookup _ _) fun _ => Within.pure _
    · refine Within.bind (within_ofExcept _) fun size => Within.bind (within_family id) fun f => ?_
      exact Within.ite (Within.pure _) (Within.bind (sameFiles_lookup _ _) fun _ => Within.pure _)

/-! ## Views -/

theorem sameFiles_releaseView (v : ViewId) : Within SameFiles (releaseView v) := by
  refine Within.bind (within_view v) fun vw => Within.ite (Within.pure _) ?_
  exact Within.guard (Within.throw _) (sameFiles_setView _ _)

theorem sameFiles_holdView (v : ViewId) : Within SameFiles (holdView v) := by
  refine Within.bind (within_view v) fun vw => Within.bind ?_ fun _ => sameFiles_setView _ _
  exact Within.ite (Within.throw _) (Within.pure _)

theorem sameFiles_unholdView (v : ViewId) : Within SameFiles (unholdView v) :=
  Within.bind (within_view v) fun _ => sameFiles_setView _ _

theorem sameFiles_releaseViews (id : IteratorId) (views : List ViewId) :
    Within SameFiles (releaseViews id views) := by
  induction views with
  | nil => exact Within.pure _
  | cons v rest ih =>
    refine Within.bind (within_outcome (sameFiles_releaseView v)) fun r => ?_
    cases r with
    | error failure => exact within_fail _
    | ok _ => exact Within.bind (within_iterator id) fun i =>
        Within.bind (sameFiles_setIterator _ _) fun _ => ih

theorem sameFiles_newView (id : IteratorId) (x : Engine.Extent) :
    Within SameFiles (newView id x) := by
  refine Within.bind Within.get fun s => Within.bind (sameFiles_setView _ _) fun _ => ?_
  exact Within.bind (within_iterator id) fun i =>
    Within.bind (sameFiles_setIterator _ _) fun _ => Within.pure _

theorem sameFiles_viewPart (part : Record → Engine.Extent) (ρ : RecordId) :
    Within SameFiles (do
      let r ← record ρ
      checkValid r
      newView r.iterator (part r)) :=
  Within.bind (within_record ρ) fun r => Within.bind (within_checkValid r) fun _ =>
    sameFiles_newView _ _

/-! ## Iterators -/

theorem sameFiles_range (id : FamilyId) (start : Value) :
    Within SameFiles (range id start) := by
  refine Within.bind (within_openFamily id) fun r => ?_
  have hkey : Within SameFiles (keySpan r.1 start) := within_keySpan _ _
  have hnull : Within SameFiles (pure (Span.null 0) : Run Span) := Within.pure _
  cases start
  -- Where the span comes from differs; what is done with it does not.
  all_goals
    refine Within.bind (by first | exact hnull | exact hkey) fun span => ?_
    refine Within.bind (sameFiles_engine (Engine.Run.sameFiles_iteratorInit _ _)) fun result => ?_
    refine Within.bind (sameFiles_note _) fun _ => ?_
    cases result.1 with
    | error status => exact Within.throw _
    | ok cursor =>
      refine Within.bind Within.get fun s => Within.bind (sameFiles_setIterator _ _) fun _ => ?_
      exact Within.bind (within_family id) fun f =>
        Within.bind (sameFiles_setFamily _ _) fun _ => Within.pure _

theorem sameFiles_leaveRecord (id : IteratorId) (cursor : Engine.Handle) :
    Within SameFiles (leaveRecord id cursor) := by
  refine Within.bind (within_iterator id) fun i => ?_
  refine Within.bind (sameFiles_releaseViews _ _) fun _ => Within.bind (within_iterator id) ?_
  exact fun i => Within.bind (sameFiles_setIterator _ _) fun _ =>
    sameFiles_engine (Engine.Run.sameFiles_iteratorNext cursor)

theorem sameFiles_giveOut (id : IteratorId) (cursor : Engine.Handle) :
    Within SameFiles (giveOut id cursor) := by
  refine Within.bind (sameFiles_engine (Engine.Run.sameFiles_iteratorGetCurrent _)) fun x => ?_
  refine Within.bind (within_iterator id) fun i => ?_
  exact Within.bind (sameFiles_setIterator _ _) fun _ => Within.get_bind fun s => rfl

theorem sameFiles_endIteration (id : IteratorId) (cursor : Engine.Handle) :
    Within SameFiles (endIteration id cursor) := by
  refine Within.bind (sameFiles_engine (Engine.Run.sameFiles_iteratorStatus _)) fun status => ?_
  refine Within.bind (within_iterator id) fun i => Within.ite ?_ (sameFiles_setIterator _ _)
  exact Within.bind (sameFiles_setIterator _ _) fun _ => Within.bind (Within.throw _) fun _ =>
    sameFiles_setIterator _ _

theorem sameFiles_advance (id : IteratorId) : Within SameFiles (advance id) := by
  have hgo : ∀ cursor, Within SameFiles (do
      if ← engine (Engine.Run.iteratorValid cursor) then
        return some (← giveOut id cursor)
      endIteration id cursor
      return none) := by
    intro cursor
    refine Within.bind (sameFiles_engine (Engine.Run.sameFiles_iteratorValid _)) fun valid => ?_
    refine Within.ite (Within.bind (sameFiles_giveOut id cursor) fun _ => Within.pure _) ?_
    exact Within.bind (sameFiles_endIteration id cursor) fun _ => Within.pure _
  refine Within.bind (within_iterator id) fun i => ?_
  cases i.cursor with
  | none => exact within_fail _
  | some cursor =>
    refine Within.bind (within_family _) fun f => Within.guard (within_fail _) ?_
    cases i.progress with
    | failed status => exact within_fail _
    | exhausted => exact Within.pure _
    | running => exact Within.guard (sameFiles_leaveRecord id cursor) (hgo cursor)

theorem sameFiles_next (id : IteratorId) : Within SameFiles (next id) := by
  refine Within.bind (sameFiles_advance id) fun r => ?_
  cases r with
  | some ρ => exact Within.bind (within_copyRecord ρ) fun _ => Within.pure _
  | none => exact Within.pure _

theorem sameFiles_closeIterator (id : IteratorId) : Within SameFiles (closeIterator id) := by
  refine Within.bind (within_iterator id) fun i => ?_
  cases i.cursor with
  | none => exact Within.pure _
  | some cursor =>
    refine Within.bind (sameFiles_releaseViews _ _) fun _ => Within.bind (within_iterator id) ?_
    exact fun i => Within.bind (sameFiles_setIterator _ _) fun _ =>
      sameFiles_engine (Engine.Run.sameFiles_iteratorDeinit cursor)

theorem sameFiles_closeFamily (id : FamilyId) : Within SameFiles (closeFamily id) := by
  have hall : ∀ ids : List IteratorId, Within SameFiles (ids.forM closeIterator) := by
    intro ids
    induction ids with
    | nil => exact Within.pure _
    | cons id ids ih => exact Within.bind (sameFiles_closeIterator id) fun _ => ih
  refine Within.bind (within_family id) fun f => ?_
  cases f.handle with
  | none => exact Within.pure _
  | some fh =>
    refine Within.bind (hall f.iterators) fun _ => Within.bind (within_family id) fun g => ?_
    refine Within.bind (sameFiles_setFamily _ _) fun _ => ?_
    refine Within.bind (sameFiles_engine (Engine.Run.sameFiles_familyDelete fh)) fun _ => ?_
    exact sameFiles_note _

end Run

/-- Whether an operation changes files: from outside, or for a database. -/
def Operation.isFiling : Operation → Bool
  | .changeFiles _ | .start _ _ _ _ | .connect _ _ _ => true
  | _ => false

/-- All other operations leave the files alone. -/
theorem sameFiles_of_not_isFiling {op : Operation} (h : op.isFiling = false) :
    Within SameFiles op.run := by
  have htune : ∀ change : Engine → Engine, (∀ e, (change e).files = e.files) →
      Within SameFiles (Run.tune change) := fun change hc =>
    Within.bind (Within.modify fun s => hc s.engine) fun _ => Within.pure _
  cases op with
  | changeFiles | start | connect => exact absurd h (by simp [Operation.isFiling])
  | failNext entry status => exact htune _ fun _ => rfl
  | failIterationAt position => exact htune _ fun _ => rfl
  | refuseResize on => exact htune _ fun _ => rfl
  | newDatabase => exact fun _ => rfl
  | register id => exact Within.map (Run.sameFiles_register id) _
  | deregister id => exact Within.map (Run.sameFiles_deregister id) _
  | createFamily id funcs size =>
    exact Within.map (Run.sameFiles_createFamily id funcs size) _
  | closeDatabase id => exact Within.map (Run.sameFiles_closeDatabase id) _
  | point id call => exact Run.sameFiles_point id call
  | range id key => exact Within.map (Run.sameFiles_range id key) _
  | closeFamily id => exact Within.map (Run.sameFiles_closeFamily id) _
  | advance id => exact Within.map (Run.sameFiles_advance id) _
  | next id => exact Within.map (Run.sameFiles_next id) _
  | closeIterator id => exact Within.map (Run.sameFiles_closeIterator id) _
  | isValid id => exact Within.map (Run.within_isValid id) _
  | copy id => exact Within.map (Run.within_copyRecord id) _
  | viewKey id => exact Within.map (Run.sameFiles_viewPart Record.key id) _
  | viewValue id => exact Within.map (Run.sameFiles_viewPart Record.value id) _
  | readView id => exact Within.map (Run.within_readView id) _
  | releaseView id => exact Within.map (Run.sameFiles_releaseView id) _
  | holdView id => exact Within.map (Run.sameFiles_holdView id) _
  | unholdView id => exact Within.map (Run.sameFiles_unholdView id) _

end FamilyStore.Store
